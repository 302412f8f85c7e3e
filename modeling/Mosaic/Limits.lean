import Mosaic.Orientation

/-!
# Limits

How many columns and rows a layout may have.  A horizontal line crosses columns and a vertical
one crosses rows, so the limit for panels on a line depends on its orientation.
-/

namespace Mosaic

/-- The most columns and the most rows. -/
structure Limits where
  columns : UInt32
  rows : UInt32
  deriving DecidableEq

namespace Limits

/-- The most panels that a line of the given orientation may cross. -/
def onLine (l : Limits) : Orientation → Nat
  | .horizontal => l.columns.toNat
  | .vertical => l.rows.toNat

/-- The most panels that fit. -/
def capacity (l : Limits) : Nat :=
  l.columns.toNat * l.rows.toNat

/-- Neither limit is zero. -/
def Roomy (l : Limits) : Prop :=
  l.columns ≠ 0 ∧ l.rows ≠ 0

instance (l : Limits) : Decidable l.Roomy := inferInstanceAs (Decidable (_ ∧ _))

/-- The limits with columns and rows exchanged. -/
def swap (l : Limits) : Limits := ⟨l.rows, l.columns⟩

@[simp] theorem swap_onLine (l : Limits) (o : Orientation) : l.swap.onLine o = l.onLine o.flip := by
  cases o <;> rfl

end Limits

end Mosaic
