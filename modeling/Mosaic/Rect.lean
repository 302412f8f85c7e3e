import Mosaic.Coordinate
import Mosaic.Orientation

/-!
# Rectangles

The workspace is the unit square, with the origin at its top left.  A rectangle has one span in
each direction, and everything said of one direction is said of spans, so the two directions
never differ by more than the name of the orientation.

* `Rect.along o`: the span of a rectangle in the direction of `o`.
* `Rect.split cut`: the two halves on either side of a line through the middle.
* `Rect.midpointBetween boundary`: the middle of the edge that two neighbours share.
-/

namespace Mosaic

open Coordinate

variable {α : Type}

/-! ### Spans -/

/-- An interval on one axis. -/
structure Span (α : Type) where
  start : α
  extent : α
  deriving DecidableEq

namespace Span

variable [Coordinate α]

/-- Where the span ends. -/
def stop (s : Span α) : α :=
  s.start + s.extent

/-- The second span lies within the first. -/
def Covers (s t : Span α) : Prop :=
  AtMost s.start t.start ∧ AtMost t.stop s.stop

/-- The spans have more than an end in common. -/
def Overlaps (s t : Span α) : Prop :=
  Below t.start s.stop ∧ Below s.start t.stop

/-- The span lies between zero and one. -/
def WithinUnit (s : Span α) : Prop :=
  AtMost 0 s.start ∧ AtMost s.stop 1

instance (s t : Span α) : Decidable (s.Covers t) := inferInstanceAs (Decidable (_ ∧ _))
instance (s t : Span α) : Decidable (s.Overlaps t) := inferInstanceAs (Decidable (_ ∧ _))
instance (s : Span α) : Decidable s.WithinUnit := inferInstanceAs (Decidable (_ ∧ _))

/-- The two halves of a span, the second one ending where the span does. -/
def halves (s : Span α) : Span α × Span α :=
  (⟨s.start, half s.extent⟩, ⟨s.start + half s.extent, s.extent - half s.extent⟩)

/-- The middle of what two spans have in common. -/
def overlapMidpoint (s t : Span α) : α :=
  half (greatest s.start t.start + least s.stop t.stop)

/-- The end of the first span that the second one touches: its stop if the second span begins
there, and else its start. -/
def meeting (s t : Span α) : α :=
  if Near t.start s.stop then s.stop else s.start

end Span

/-! ### Points -/

/-- A place in the workspace. -/
structure Point (α : Type) where
  x : α
  y : α
  deriving DecidableEq

namespace Point

/-- The coordinate of the line of orientation `o` through the point. -/
def line (p : Point α) : Orientation → α
  | .horizontal => p.y
  | .vertical => p.x

/-- The point at `position` on the line of orientation `o` at `line`. -/
def onLine (o : Orientation) (line position : α) : Point α :=
  match o with
  | .horizontal => ⟨position, line⟩
  | .vertical => ⟨line, position⟩

/-- Both coordinates are near. -/
def Near [Coordinate α] (p q : Point α) : Prop :=
  Coordinate.Near p.x q.x ∧ Coordinate.Near p.y q.y

instance [Coordinate α] (p q : Point α) : Decidable (p.Near q) :=
  inferInstanceAs (Decidable (_ ∧ _))

@[simp] theorem line_onLine (o : Orientation) (l p : α) : (onLine o l p).line o = l := by
  cases o <;> rfl

@[simp] theorem line_flip_onLine (o : Orientation) (l p : α) :
    (onLine o l p).line o.flip = p := by
  cases o <;> rfl

end Point

/-! ### Rectangles -/

/-- A rectangle with sides along the axes: its left and top edge, and its size. -/
structure Rect (α : Type) where
  x : α
  y : α
  width : α
  height : α
  deriving DecidableEq

namespace Rect

/-- The span of the rectangle in the direction of an orientation. -/
def along (r : Rect α) : Orientation → Span α
  | .horizontal => ⟨r.x, r.width⟩
  | .vertical => ⟨r.y, r.height⟩

/-- The rectangle with one span in the direction of `o` and one across it. -/
def ofSpans (o : Orientation) (along across : Span α) : Rect α :=
  match o with
  | .horizontal => ⟨along.start, across.start, along.extent, across.extent⟩
  | .vertical => ⟨across.start, along.start, across.extent, along.extent⟩

@[simp] theorem along_ofSpans (o : Orientation) (s t : Span α) : (ofSpans o s t).along o = s := by
  cases o <;> rfl

@[simp] theorem along_flip_ofSpans (o : Orientation) (s t : Span α) :
    (ofSpans o s t).along o.flip = t := by
  cases o <;> rfl

@[simp] theorem ofSpans_along (o : Orientation) (r : Rect α) :
    ofSpans o (r.along o) (r.along o.flip) = r := by
  cases o <;> rfl

variable [Coordinate α]

/-- The whole workspace. -/
def unit : Rect α :=
  ⟨0, 0, 1, 1⟩

/-- The rectangle between four edges. -/
def ofEdges (left top right bottom : α) : Rect α :=
  ⟨left, top, right - left, bottom - top⟩

/-- The left edge. -/
def left (r : Rect α) : α := (r.along .horizontal).start

/-- The top edge. -/
def top (r : Rect α) : α := (r.along .vertical).start

/-- The right edge. -/
def right (r : Rect α) : α := (r.along .horizontal).stop

/-- The bottom edge. -/
def bottom (r : Rect α) : α := (r.along .vertical).stop

/-- Width times height. -/
def area (r : Rect α) : α :=
  r.width * r.height

/-- The upper left corner. -/
def corner (r : Rect α) : Point α :=
  ⟨r.x, r.y⟩

/-- All four numbers are near. -/
def Near (r s : Rect α) : Prop :=
  Coordinate.Near r.x s.x ∧ Coordinate.Near r.y s.y ∧
    Coordinate.Near r.width s.width ∧ Coordinate.Near r.height s.height

/-- All four numbers are equal. -/
def Equal (r s : Rect α) : Prop :=
  Coordinate.Equal r.x s.x ∧ Coordinate.Equal r.y s.y ∧
    Coordinate.Equal r.width s.width ∧ Coordinate.Equal r.height s.height

/-- The rectangle lies in the workspace. -/
def WithinUnit (r : Rect α) : Prop :=
  (r.along .horizontal).WithinUnit ∧ (r.along .vertical).WithinUnit

/-- The interiors have something in common; a shared edge does not count. -/
def Intersects (r s : Rect α) : Prop :=
  (r.along .horizontal).Overlaps (s.along .horizontal) ∧
    (r.along .vertical).Overlaps (s.along .vertical)

instance (r s : Rect α) : Decidable (r.Near s) := inferInstanceAs (Decidable (_ ∧ _))
instance (r s : Rect α) : Decidable (r.Equal s) := inferInstanceAs (Decidable (_ ∧ _))
instance (r : Rect α) : Decidable r.WithinUnit := inferInstanceAs (Decidable (_ ∧ _))
instance (r s : Rect α) : Decidable (r.Intersects s) := inferInstanceAs (Decidable (_ ∧ _))

/-- The halves on either side of a cut: left and right, or top and bottom. -/
def split (r : Rect α) (cut : Orientation) : Rect α × Rect α :=
  let (first, second) := (r.along cut.flip).halves
  (ofSpans cut (r.along cut) first, ofSpans cut (r.along cut) second)

/-- The middle of the edge that two rectangles share on a boundary of the given orientation. -/
def midpointBetween (r s : Rect α) (boundary : Orientation) : Point α :=
  .onLine boundary ((r.along boundary.flip).meeting (s.along boundary.flip))
    ((r.along boundary).overlapMidpoint (s.along boundary))

/-- Grows the first rectangle over the second, across a boundary that they share. -/
def growOver (r s : Rect α) (boundary : Orientation) : Rect α :=
  let mine := r.along boundary.flip
  let yours := s.along boundary.flip
  ofSpans boundary (r.along boundary)
    ⟨least mine.start yours.start, mine.extent + yours.extent⟩

@[simp] theorem along_growOver (r s : Rect α) (boundary : Orientation) :
    (r.growOver s boundary).along boundary = r.along boundary :=
  along_ofSpans _ _ _

end Rect

end Mosaic
