import Mosaic.Binary64
import Mosaic.Coordinate

/-!
# Coordinates in double precision

Layouts are computed in double precision with a tolerance of one millionth.  The sum of no numbers
is negative zero, since adding a positive zero would lose the sign of a negative one.  The total
order goes by sign and magnitude of the representation and by nothing else.  So a number that is not
comparable to itself comes before all others if its sign is a minus, and after all others if not.
-/

namespace Mosaic

/-- The place of a double in the total order. -/
def doubleRank (x : Float) : Int :=
  if Binary64.isNegative x then -Binary64.magnitude x - 1 else Binary64.magnitude x

instance : Coordinate Float where
  tolerance := 1e-6
  emptySum := -0.0
  round := Binary64.nearestWhole
  precedes a b := doubleRank a ≤ doubleRank b
  decidableLT := inferInstance
  decidableLE := inferInstance

end Mosaic
