import Mosaic.Layout

/-!
# Neighbours

Two panels are neighbours across a boundary when they share a line of its orientation and the
extent of one along that line lies within the extent of the other.  Neighbours are asked for one
panel at a time, the anchor, which has the larger extent: above or below it across a horizontal
boundary, left or right of it across a vertical one.
-/

namespace Mosaic

open Coordinate

variable {α : Type} [Coordinate α]

/-- The side of an anchor that a neighbour touches: above or left, below or right. -/
inductive Side where
  | before
  | after
  deriving DecidableEq

/-- Both sides, the one before first. -/
def Side.all : List Side := [.before, .after]

/-- A neighbour, the orientation of the boundary it touches, and the side of the anchor. -/
structure Neighbour (α : Type) where
  panel : Panel α
  boundary : Orientation
  side : Side
  deriving DecidableEq

/-- The side of the anchor that a rectangle touches across a boundary of the given orientation,
provided that its extent along the boundary lies within the anchor's. -/
def Rect.sideTouched (anchor r : Rect α) (boundary : Orientation) : Option Side :=
  if (anchor.along boundary).Covers (r.along boundary) then
    if Coordinate.Near (r.along boundary.flip).stop (anchor.along boundary.flip).start then some .before
    else if Coordinate.Near (r.along boundary.flip).start (anchor.along boundary.flip).stop then some .after
    else none
  else none

namespace Layout

/-- The neighbours of an anchor across boundaries of the given orientations, in label order.  The
anchor need not be a panel of the layout; a panel of its label is never reported.  A panel without
extent can touch across both orientations, the horizontal one being reported first. -/
def neighbours (s : Layout α) (anchor : Panel α) (boundaries : List Orientation) :
    List (Neighbour α) :=
  (s.panels.filter (·.id ≠ anchor.id)).flatMap fun p =>
    (Orientation.all.filter (· ∈ boundaries)).filterMap fun b =>
      (anchor.rect.sideTouched p.rect b).map fun side => ⟨p, b, side⟩

end Layout

end Mosaic
