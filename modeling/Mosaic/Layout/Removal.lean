import Mosaic.Layout.Adjacency

/-!
# Removing a panel

The area of a removed panel goes to its neighbours on one side, which all grow over it.  A side can
take the area if the neighbours there cover the whole edge; they form a flank.

* A flank of a single panel that pairs with the removed one into an aligned rectangle is its twin,
  the other half of the cut that made both, and is taken first.
* Otherwise the boundary that has the orientation of the layout goes first, and of its two flanks
  the one with fewer panels, then the one with less area, then the one before.
-/

namespace Mosaic

open Coordinate

variable {α : Type} [Coordinate α]

/-- The neighbours on one side of a panel. -/
structure Flank (α : Type) where
  boundary : Orientation
  side : Side
  panels : List (Panel α)

namespace Flank

/-- The sum of the areas. -/
def area (f : Flank α) : α :=
  sum (f.panels.map (·.rect.area))

/-- The part of the edge that the neighbours cover. -/
def covered (f : Flank α) : α :=
  sum (f.panels.map fun p => (p.rect.along f.boundary).extent)

/-- The neighbours cover the whole edge of the removed rectangle. -/
def Usable (f : Flank α) (removed : Rect α) : Prop :=
  f.panels ≠ [] ∧ Near f.covered (removed.along f.boundary).extent

instance (f : Flank α) (removed : Rect α) : Decidable (f.Usable removed) :=
  inferInstanceAs (Decidable (_ ∧ _))

/-- Orders the flanks of one boundary, the preferred one first. -/
def compare (f g : Flank α) : Ordering :=
  (Ord.compare f.panels.length g.panels.length).then <|
  (compareNear f.area g.area).then <|
  match f.side, g.side with
  | .before, .after => .lt
  | .after, .before => .gt
  | _, _ => .eq

/-- The flank that comes first in the order. -/
def preferred : List (Flank α) → Option (Flank α)
  | [] => none
  | f :: fs => some (fs.foldl (fun f g => if f.compare g = .gt then g else f) f)

end Flank

/-- Two spans have the same extent, and together they begin at a multiple of their joint extent. -/
def Span.Twins (s t : Span α) : Prop :=
  ¬ s.extent ≤ tolerance ∧ Near s.extent t.extent ∧
    let slots := least s.start t.start / twice s.extent
    Near slots (Coordinate.round slots)

instance (s t : Span α) : Decidable (s.Twins t) := inferInstanceAs (Decidable (_ ∧ _ ∧ _))

namespace Flank

/-- The flank is a single panel, the twin of the removed rectangle. -/
def IsTwin (f : Flank α) (removed : Rect α) : Prop :=
  match f.panels with
  | [p] => (removed.along f.boundary.flip).Twins (p.rect.along f.boundary.flip)
  | _ => False

instance (f : Flank α) (removed : Rect α) : Decidable (f.IsTwin removed) := by
  unfold IsTwin
  split <;> infer_instance

end Flank

namespace Layout

/-- The flank of a panel on one side. -/
def flank (rest : Layout α) (removed : Panel α) (boundary : Orientation) (side : Side) : Flank α :=
  ⟨boundary, side, (rest.neighbours removed Orientation.all).filterMap fun n =>
    if n.boundary = boundary ∧ n.side = side then some n.panel else none⟩

/-- The flanks of a panel that can take its area, across boundaries of one orientation. -/
def usableFlanks (rest : Layout α) (removed : Panel α) (boundary : Orientation) :
    List (Flank α) :=
  (Side.all.map (rest.flank removed boundary)).filter (·.Usable removed.rect)

/-- The flank that takes the area of a panel. -/
def heirs? (rest : Layout α) (removed : Panel α) : Option (Flank α) :=
  let first := rest.usableFlanks removed rest.orientation
  let second := rest.usableFlanks removed rest.orientation.flip
  (first ++ second).find? (·.IsTwin removed.rect) <|>
    Flank.preferred first <|> Flank.preferred second

/-- The layout in which the panels of a flank have grown over the removed rectangle. -/
def handOver (rest : Layout α) (removed : Rect α) (f : Flank α) : Layout α :=
  rest.putAll (f.panels.map fun p => ⟨p.id, p.rect.growOver removed f.boundary⟩)

/-- The layout without a panel, its area handed to neighbours.  Of two panels the other one fills
the workspace.  The result is not checked: the assertion of debug builds that a valid layout has not
become invalid is left out, since it decides about no result. -/
def remove (s : Layout α) (id : PanelId) : Except Refusal (Layout α) :=
  match s.find? id with
  | none => .error (.unknownPanel id)
  | some removed =>
    let rest := s.erase id
    match rest.panels with
    | [] => .ok (empty s.orientation)
    | [survivor] => .ok (single survivor.id s.orientation)
    | _ =>
      match rest.heirs? ⟨id, removed⟩ with
      | none => .error (.noNeighbour id)
      | some f => .ok (rest.handOver removed f)

end Layout

end Mosaic
