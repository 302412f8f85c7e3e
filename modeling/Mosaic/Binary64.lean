/-!
# The bits of a double

A double is a sign and a magnitude, and the magnitude of a finite one is an exponent and a fraction.
Magnitudes of numbers are in the order of their absolute values.
-/

namespace Mosaic.Binary64

/-- The bit of the sign, which is the highest one. -/
def signBit : Nat := 9223372036854775808

/-- The number of fractions for each exponent. -/
def fractions : Nat := 4503599627370496

/-- Whether the sign is a minus. -/
def isNegative (x : Float) : Bool :=
  signBit ≤ x.toBits.toNat

/-- The bits below the sign. -/
def magnitude (x : Float) : Nat :=
  x.toBits.toNat % signBit

/-- The nearest whole number, halves going away from zero, with the sign of the double.  A double
without places below one is its own. -/
def nearestWhole (x : Float) : Float :=
  match x.toModel.unpack with
  | .finite s m e _ =>
    if e < 0 then
      let places := (-e).toNat
      .ofModel (.pack (.round .binary64 s ((m + 1 <<< (places - 1)) >>> places) 0))
    else x
  | _ => x

end Mosaic.Binary64
