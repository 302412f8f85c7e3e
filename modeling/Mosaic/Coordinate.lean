/-!
# Coordinates

Positions and extents are numbers of a type with arithmetic, an order and a tolerance.  Every
comparison of two positions goes through the tolerance, so that drift in the last digits never
decides a question of layout.

* `Near a b`: the two differ by at most the tolerance.
* `AtMost a b`: `a` lies below `b`, or near it.
* `Below a b`: `a` lies below `b`, and not near it.
* `Equal a b`: each is at most the other in the plain order, so a number that is not comparable
  to itself is equal to nothing.

Nothing is assumed of the arithmetic here: the definitions make sense for rounded numbers as well
as for exact ones.
-/

namespace Mosaic

/-- Numbers that positions and extents are measured in. -/
class Coordinate (α : Type) extends Zero α, One α, Add α, Sub α, Mul α, Div α, LT α, LE α where
  /-- The largest difference at which two positions count as the same. -/
  tolerance : α
  /-- The sum of no numbers, which added to a number gives back that number. -/
  emptySum : α
  /-- The nearest whole number, halves going away from zero. -/
  round : α → α
  /-- A total order that agrees with `<` on all numbers that `<` can tell apart. -/
  precedes : α → α → Bool
  /-- The strict order can be decided. -/
  decidableLT : DecidableLT α
  /-- The order can be decided. -/
  decidableLE : DecidableLE α

namespace Coordinate

variable {α : Type} [Coordinate α]

instance (a b : α) : Decidable (a < b) := decidableLT a b
instance (a b : α) : Decidable (a ≤ b) := decidableLE a b

/-! ### Comparisons up to the tolerance -/

/-- The two numbers differ by at most the tolerance. -/
def Near (a b : α) : Prop :=
  a - b ≤ tolerance ∧ b - a ≤ tolerance

/-- The first number lies below the second, or near it. -/
def AtMost (a b : α) : Prop :=
  a < b ∨ Near a b

/-- The first number lies below the second, and not near it. -/
def Below (a b : α) : Prop :=
  a < b ∧ ¬ Near a b

/-- Each number is at most the other. -/
def Equal (a b : α) : Prop :=
  a ≤ b ∧ b ≤ a

instance (a b : α) : Decidable (Near a b) := inferInstanceAs (Decidable (_ ∧ _))
instance (a b : α) : Decidable (AtMost a b) := inferInstanceAs (Decidable (_ ∨ _))
instance (a b : α) : Decidable (Below a b) := inferInstanceAs (Decidable (_ ∧ _))
instance (a b : α) : Decidable (Equal a b) := inferInstanceAs (Decidable (_ ∧ _))

theorem near_comm {a b : α} : Near a b ↔ Near b a :=
  And.comm

theorem Near.symm {a b : α} (h : Near a b) : Near b a :=
  near_comm.1 h

theorem Near.atMost {a b : α} (h : Near a b) : AtMost a b :=
  Or.inr h

theorem Below.lt {a b : α} (h : Below a b) : a < b :=
  h.1

theorem Below.atMost {a b : α} (h : Below a b) : AtMost a b :=
  Or.inl h.1

/-! ### Arithmetic -/

/-- One half of a number. -/
def half (a : α) : α :=
  a / (1 + 1)

/-- Twice a number. -/
def twice (a : α) : α :=
  (1 + 1) * a

/-- The smaller of two numbers: the first if they are equal, and the other one if one of them is
not comparable to itself. -/
def least (a b : α) : α :=
  if b < a then b else if a ≤ a then a else b

/-- The larger of two numbers: the first if they are equal, and the other one if one of them is
not comparable to itself. -/
def greatest (a b : α) : α :=
  if a < b then b else if a ≤ a then a else b

/-- The sum of the numbers, from the first to the last. -/
def sum (xs : List α) : α :=
  xs.foldl (· + ·) emptySum

@[simp] theorem sum_nil : sum ([] : List α) = emptySum := rfl

/-- Orders two numbers, taking near ones as the same. -/
def compareNear (a b : α) : Ordering :=
  if Near a b then .eq else if ¬ precedes b a then .lt else if ¬ precedes a b then .gt else .eq

end Coordinate

end Mosaic
