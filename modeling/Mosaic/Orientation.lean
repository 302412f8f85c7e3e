/-!
# Orientations

An orientation is said of three things: of a layout, whose panels it prefers to stack along one
direction; of a cut, which is a line through a panel; and of a boundary between two panels, which
is a line too.  A vertical cut gives a left and a right half; a horizontal boundary separates a
panel above from a panel below.
-/

namespace Mosaic

/-- Direction of a line, or of the preference of a layout. -/
inductive Orientation where
  | horizontal
  | vertical
  deriving DecidableEq

namespace Orientation

/-- Both orientations, the horizontal one first. -/
def all : List Orientation :=
  [horizontal, vertical]

/-- The perpendicular orientation. -/
def flip : Orientation → Orientation
  | horizontal => vertical
  | vertical => horizontal

/-- The word for the orientation. -/
def name : Orientation → String
  | horizontal => "horizontal"
  | vertical => "vertical"

/-- The orientation of a name. -/
def ofName? (s : String) : Option Orientation :=
  all.find? (·.name == s)

@[simp] theorem flip_horizontal : horizontal.flip = vertical := rfl

@[simp] theorem flip_vertical : vertical.flip = horizontal := rfl

@[simp] theorem flip_flip (o : Orientation) : o.flip.flip = o := by
  cases o <;> rfl

@[simp] theorem flip_ne (o : Orientation) : o.flip ≠ o := by
  cases o <;> decide

theorem eq_or_eq_flip (o p : Orientation) : p = o ∨ p = o.flip := by
  cases o <;> cases p <;> decide

@[simp] theorem ofName?_name (o : Orientation) : ofName? o.name = some o := by
  cases o <;> decide

end Orientation

end Mosaic
