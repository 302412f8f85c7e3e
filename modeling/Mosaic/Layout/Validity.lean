import Mosaic.Layout

/-!
# Valid layouts

A layout is valid when every panel lies in the workspace, no two panels intersect, and the areas
add up to that of the workspace.  The layout without panels is valid too.

* `Layout.validate`: stops at the first violation.
* `Layout.findings`: lists every violation, each intersecting pair once, and besides them the
  panel that still waits for its label, which is no violation.
-/

namespace Mosaic

open Coordinate

variable {α : Type}

/-- What keeps a layout from being valid. -/
inductive Violation (α : Type) where
  | outOfBounds (id : PanelId) (rect : Rect α)
  | overlap (id other : PanelId)
  | coverage (total : α)
  deriving DecidableEq

/-- What a full check of a layout can find. -/
inductive Finding (α : Type) where
  | pending (id : PanelId)
  | violation (v : Violation α)
  deriving DecidableEq

namespace Layout

variable [Coordinate α]

/-! ### The first violation -/

/-- The first violation that a single panel causes. -/
def violationAt? (s : Layout α) (p : Panel α) : Option (Violation α) :=
  if ¬ p.rect.WithinUnit then some (.outOfBounds p.id p.rect)
  else (s.panels.find? fun q => q.id ≠ p.id ∧ p.rect.Intersects q.rect).map (.overlap p.id ·.id)

/-- The areas added up from zero, in label order. -/
def coveredArea (s : Layout α) : α :=
  (s.panels.map (·.rect.area)).foldl (· + ·) 0

/-- Accepts valid layouts, and else gives the first violation. -/
def validate (s : Layout α) : Except (Violation α) Unit :=
  match s.panels.findSome? s.violationAt? with
  | some v => .error v
  | none =>
    if s.panels.isEmpty ∨ Near s.coveredArea 1 then .ok () else .error (.coverage s.coveredArea)

/-- Whether the layout is valid. -/
def isValid (s : Layout α) : Bool :=
  s.validate.isOk

/-! ### All findings -/

/-- What a check finds at one panel, given the panels after it. -/
def findingsAt (p : Panel α) (later : List (Panel α)) : List (Finding α) :=
  (if p.id = .pending then [.pending p.id] else []) ++
  (if p.rect.WithinUnit then [] else [.violation (.outOfBounds p.id p.rect)]) ++
  (later.filter (p.rect.Intersects ·.rect)).map fun q => .violation (.overlap p.id q.id)

/-- What a check finds at the panels of a list. -/
def panelFindings : List (Panel α) → List (Finding α)
  | [] => []
  | p :: later => findingsAt p later ++ panelFindings later

/-- Every finding, panel by panel, and the covered area last. -/
def findings (s : Layout α) : List (Finding α) :=
  panelFindings s.panels ++
    if s.panels.isEmpty ∨ Near s.totalArea 1 then [] else [.violation (.coverage s.totalArea)]

end Layout

end Mosaic
