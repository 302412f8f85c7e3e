import Mosaic.Decimal.Shortest

/-!
# The double nearest to a decimal
-/

namespace Mosaic.Decimal

/-- The double nearest to a decimal.  Decimals from 10⁴⁰⁰ on are infinite, and those below 10⁻⁴⁰⁰
are zero, without looking at their digits. -/
def nearest (d : Decimal) : Float :=
  let leading := (Nat.repr d.digits).length + d.exponent
  if d.digits = 0 ∨ leading < -400 then 0
  else if 400 < leading then 1 / 0
  else Float.ofScientific d.digits (d.exponent < 0) d.exponent.natAbs

end Mosaic.Decimal
