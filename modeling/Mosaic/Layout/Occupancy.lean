import Mosaic.Layout

/-!
# Occupancy

How many panels share a band with a panel, and how many a line through it crosses.  Both are said
of the orientation of a line: along a horizontal line lie columns, along a vertical one lie rows.

* `Layout.bandCount line p`: panels that begin where `p` begins, seen across the line, or that
  touch an end of `p` along the line and reach into its band.
* `Layout.crossings line r`: the most panels that one line of this orientation crosses on its way
  through `r`.  The number of panels crossed changes only at their edges, so it is enough to look
  at one line between any two edges that follow each other.
-/

namespace Mosaic

open Coordinate

variable {α : Type} [Coordinate α]

/-- The rectangle takes part in the band of another one along a line. -/
def Rect.InBand (r band : Rect α) (line : Orientation) : Prop :=
  Coordinate.Near (r.along line.flip).start (band.along line.flip).start ∨
    (Coordinate.Near (r.along line).start (band.along line).stop ∨
        Coordinate.Near (r.along line).stop (band.along line).start) ∧
      (AtMost (band.along line.flip).start (r.along line.flip).stop ∨
        AtMost (r.along line.flip).start (band.along line.flip).start)

instance (r band : Rect α) (line : Orientation) : Decidable (r.InBand band line) :=
  inferInstanceAs (Decidable (_ ∨ _ ∧ _))

/-- The line at a position crosses the interior of the span. -/
def Span.CrossedAt (s : Span α) (position : α) : Prop :=
  s.start < position ∧ position < s.stop

instance (s : Span α) (position : α) : Decidable (s.CrossedAt position) :=
  inferInstanceAs (Decidable (_ ∧ _))

/-- Keeps the first of every run of numbers that are near the one kept last. -/
def Span.thin (last : α) : List α → List α
  | [] => [last]
  | x :: xs => if Near x last then thin last xs else last :: thin x xs

/-- The middles between each number and the next. -/
def Span.midpoints : List α → List α
  | x :: y :: rest => half (x + y) :: midpoints (y :: rest)
  | _ => []

/-- The middles between the distinct edges that spans have within a span, its own included. -/
def Span.samples (s : Span α) (others : List (Span α)) : List α :=
  let inner := (others.flatMap fun t => [t.start, t.stop]).filter s.CrossedAt
  match (s.start :: s.stop :: inner).mergeSort Coordinate.precedes with
  | [] => []
  | x :: xs => midpoints (thin x xs)

namespace Layout

/-- The number of panels in the band of a panel: columns along a horizontal line, rows along a
vertical one. -/
def bandCount (s : Layout α) (line : Orientation) (p : Panel α) : Nat :=
  s.panels.countP (·.rect.InBand p.rect line)

/-- The number of panels that the line at a position crosses. -/
def crossedAt (s : Layout α) (line : Orientation) (position : α) : Nat :=
  s.panels.countP fun p => (p.rect.along line.flip).CrossedAt position

/-- The most panels that one line of the given orientation through a rectangle crosses. -/
def crossings (s : Layout α) (line : Orientation) (r : Rect α) : Nat :=
  (((r.along line.flip).samples (s.panels.map (·.rect.along line.flip))).map
    (s.crossedAt line)).foldl max 0

/-- The occupancy that decides whether a panel may be cut across a line. -/
def occupancy (s : Layout α) (line : Orientation) (p : Panel α) : Nat :=
  max (s.bandCount line p) (s.crossings line p.rect)

end Layout

end Mosaic
