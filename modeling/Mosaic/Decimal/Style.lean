import Mosaic.Decimal.Shortest

/-!
# Writing numbers

A style says how the shortest decimal of a double is laid out: which magnitudes are written
positionally, whether a whole number keeps a fraction, and the words for numbers that have no
decimal.
-/

namespace Mosaic

namespace Decimal

/-- A way of writing doubles. -/
structure Style where
  /-- Which of two equally near decimals is written. -/
  tie : Tie
  /-- Whether a number whose leading digit has this place value, an exponent of ten, is written
  positionally. -/
  positional : Int → Bool
  /-- Whether a whole number written positionally ends in a zero fraction. -/
  wholeFraction : Bool
  /-- What precedes an exponent that is not negative. -/
  plusSign : String
  /-- The word for an infinite number, after its sign. -/
  infinity : String
  /-- The word for what is not a number. -/
  notANumber : String
  /-- Whether infinite numbers have a sign. -/
  signedInfinity : Bool

namespace Style

variable (s : Style)

/-- The digits with a point at the place that the exponent gives. -/
def writePositional (d : Decimal) : String :=
  let digits := (Nat.repr d.digits).toList
  let fraction := if s.wholeFraction then ".0" else ""
  if 0 ≤ d.exponent then
    String.ofList (digits ++ List.replicate d.exponent.toNat '0') ++ fraction
  else
    let whole := digits.length + d.exponent
    if 0 < whole then
      String.ofList (digits.take whole.toNat ++ '.' :: digits.drop whole.toNat)
    else
      String.ofList ('0' :: '.' :: List.replicate (-whole).toNat '0' ++ digits)

/-- One digit before the point, and the exponent of ten after all digits. -/
def writeScientific (d : Decimal) : String :=
  let digits := (Nat.repr d.digits).toList
  let exponent := digits.length - 1 + d.exponent
  let point := if digits.length = 1 then [] else ['.']
  let sign := if exponent < 0 then "-" else s.plusSign
  String.ofList (digits.take 1 ++ point ++ digits.drop 1) ++ "e" ++ sign ++
    Nat.repr exponent.natAbs

/-- A decimal, positionally or with an exponent. -/
def writeDecimal (d : Decimal) : String :=
  let leading := (Nat.repr d.digits).length - 1 + d.exponent
  if d.digits = 0 ∨ s.positional leading then s.writePositional d else s.writeScientific d

/-- The text of a double. -/
def write (x : Float) : String :=
  let sign := if Binary64.isNegative x then "-" else ""
  if x.isNaN then s.notANumber
  else if x.isInf then (if s.signedInfinity then sign else "") ++ s.infinity
  else sign ++ s.writeDecimal (shortest s.tie x)

end Style

end Decimal

end Mosaic
