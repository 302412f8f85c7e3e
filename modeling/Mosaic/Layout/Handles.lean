import Mosaic.Layout.Adjacency

/-!
# Handles

A handle sits in the middle of an edge that two neighbours share and moves the boundary there.  It
is connected to the panels that move with it.

* Handles on the same edge of one panel are connected to the same panels.
* Handles at the same position are one handle, the first of them.
* Boundaries across the preferred direction of the workspace move as whole lines: all handles on
  such a line are connected to the same panels.
-/

namespace Mosaic

open Coordinate

variable {α : Type}

/-- A boundary that can be moved, and the panels that move with it, in the order in which they
were found. -/
structure Handle (α : Type) where
  boundary : Orientation
  position : Point α
  panels : List PanelId
  deriving DecidableEq

namespace Handle

/-- The coordinate of the line that the handle moves. -/
def line (h : Handle α) : α :=
  h.position.line h.boundary

variable [Coordinate α]

/-- The handles move the same line. -/
def Collinear (h k : Handle α) : Prop :=
  h.boundary = k.boundary ∧ Near h.line k.line

/-- The handles have the same boundary and position. -/
def Coincides (h k : Handle α) : Prop :=
  h.boundary = k.boundary ∧ h.position.Near k.position

instance (h k : Handle α) : Decidable (h.Collinear k) := inferInstanceAs (Decidable (_ ∧ _))
instance (h k : Handle α) : Decidable (h.Coincides k) := inferInstanceAs (Decidable (_ ∧ _))

/-- The handle between a panel and one of its neighbours. -/
def between (p : Panel α) (n : Neighbour α) : Handle α :=
  ⟨n.boundary, p.rect.midpointBetween n.panel.rect n.boundary, [p.id, n.panel.id]⟩

/-- The handle, connected to the panels of all handles of a list as well. -/
def connectAll (h : Handle α) (hs : List (Handle α)) : Handle α :=
  { h with panels := (h.panels ++ hs.flatMap (·.panels)).eraseDups }

/-- Keeps the first of all handles that coincide. -/
def distinct (hs : List (Handle α)) : List (Handle α) :=
  hs.foldl (fun kept h => if kept.any (·.Coincides h) then kept else kept ++ [h]) []

/-- The coordinates of the lines on which the handles of a boundary lie, each line counted at the
first handle found on it. -/
def lines (boundary : Orientation) (hs : List (Handle α)) : List α :=
  (hs.filter (·.boundary = boundary)).foldl
    (fun found h => if found.any (Near · h.line) then found else found ++ [h.line]) []

/-- The place of a handle's line among the lines of a boundary. -/
def lineIndex? (boundary : Orientation) (lines : List α) (h : Handle α) : Option Nat :=
  if h.boundary = boundary then lines.findIdx? (Near · h.line) else none

/-- Connects every handle of a boundary to the panels of all handles on its line. -/
def unifyLines (boundary : Orientation) (hs : List (Handle α)) : List (Handle α) :=
  let found := lines boundary hs
  hs.map fun h =>
    match lineIndex? boundary found h with
    | none => h
    | some i =>
      { h with
        panels := ((hs.filter (lineIndex? boundary found · = some i)).flatMap (·.panels)).eraseDups }

end Handle

namespace Layout

variable [Coordinate α]

/-- The handles between a panel and its neighbours, those on one edge connected to each other. -/
def handlesAt (s : Layout α) (p : Panel α) : List (Handle α) :=
  let own := (s.neighbours p Orientation.all).map (Handle.between p)
  own.map fun h => h.connectAll (own.filter fun k => ¬ k.position.Near h.position ∧ h.Collinear k)

/-- All handles of a layout in a workspace of the given orientation. -/
def handles (s : Layout α) (workspace : Orientation) : List (Handle α) :=
  Handle.unifyLines workspace.flip (Handle.distinct (s.panels.flatMap s.handlesAt))

end Layout

end Mosaic
