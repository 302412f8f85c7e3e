import Mosaic.Json.Fault

/-!
# Numbers in JSON texts

A numeral is a whole part, perhaps a fraction and perhaps an exponent.  It is read in two steps:
first its digits, then the number that they stand for.

* Numerals without fraction and exponent are integers, as long as they have a 64-bit form; a
  negative zero has none.
* All others are doubles.  As many leading digits as a 64-bit number holds are scaled by a power of
  ten, in double precision; the digits after them count for their place only.
-/

namespace Mosaic.Json

/-- A number, either whole or fractional. -/
inductive Number where
  | integer (i : Int)
  | fraction (x : Float)
  deriving DecidableEq

/-- The digits of a number. -/
structure Numeral where
  negative : Bool
  whole : List Nat
  fraction : Option (List Nat)
  /-- The sign of the exponent, negative or not, and its digits. -/
  exponent : Option (Bool × List Nat)
  deriving DecidableEq

namespace Numeral

/-! ### Digits -/

/-- The digits at the start of a text. -/
def digits (cs : List Char) : List Nat :=
  (cs.takeWhile Text.isDigit).filterMap Text.digit?

/-- What follows the digits at the start of a text. -/
def afterDigits (cs : List Char) : List Char :=
  cs.dropWhile Text.isDigit

/-- One digit at least. -/
def someDigits (cs : List Char) : Except Fault (List Nat × List Char) :=
  match cs with
  | [] => .error .truncated
  | c :: _ =>
    if Text.isDigit c then .ok (digits cs, afterDigits cs) else .error .malformed

/-- The digits before the point: a zero alone, or digits that do not begin with one. -/
def wholeDigits (cs : List Char) : Except Fault (List Nat × List Char) := do
  let (ds, rest) ← someDigits cs
  if ds.head? = some 0 ∧ ds.length ≠ 1 then .error .malformed else .ok (ds, rest)

/-- The point and the digits after it, if there is a point. -/
def fractionDigits (cs : List Char) : Except Fault (Option (List Nat) × List Char) :=
  match cs with
  | '.' :: rest => do
    let (ds, rest) ← someDigits rest
    .ok (some ds, rest)
  | _ => .ok (none, cs)

/-- The letter, the sign and the digits of an exponent, if there is the letter. -/
def exponentDigits (cs : List Char) : Except Fault (Option (Bool × List Nat) × List Char) :=
  match cs with
  | c :: rest =>
    if c = 'e' ∨ c = 'E' then do
      let (negative, rest) := match rest with
        | '-' :: rest => (true, rest)
        | '+' :: rest => (false, rest)
        | _ => (false, rest)
      let (ds, rest) ← someDigits rest
      .ok (some (negative, ds), rest)
    else .ok (none, cs)
  | [] => .ok (none, cs)

/-- The numeral at the start of a text, after its sign. -/
def unsigned (negative : Bool) (cs : List Char) : Except Fault (Numeral × List Char) := do
  let (whole, cs) ← wholeDigits cs
  let (fraction, cs) ← fractionDigits cs
  let (exponent, cs) ← exponentDigits cs
  .ok (⟨negative, whole, fraction, exponent⟩, cs)

/-- The numeral at the start of a text. -/
def scan (cs : List Char) : Except Fault (Numeral × List Char) :=
  match cs with
  | '-' :: rest => unsigned true rest
  | _ => unsigned false cs

/-! ### Values -/

/-- Takes digits into a number as long as 64 bits hold it, and gives the digits left. -/
def gather (n : Nat) : List Nat → Nat × List Nat
  | [] => (n, [])
  | d :: ds => if n * 10 + d < UInt64.size then gather (n * 10 + d) ds else (n, d :: ds)

/-- A power of ten up to the 308th in double precision. -/
def powerOfTen (n : Nat) : Float :=
  Float.ofScientific 1 false n

/-- Divides by a power of ten, in steps that double precision can hold. -/
def scaleDown (x : Float) (n : Nat) : Float :=
  if n ≤ 308 then x / powerOfTen n
  else if x == 0 then x
  else scaleDown (x / powerOfTen 308) (n - 308)
termination_by n

/-- Multiplies by a power of ten, unless the result is out of range. -/
def scaleUp (x : Float) (n : Nat) : Option Float :=
  if n ≤ 308 then
    let y := x * powerOfTen n
    if y.isInf then none else some y
  else if x == 0 then some x
  else none

/-- A whole number times a power of ten. -/
def scale (n : Nat) (exponent : Int) : Option Float :=
  if 0 ≤ exponent then scaleUp (Float.ofNat n) exponent.toNat
  else some (scaleDown (Float.ofNat n) (-exponent).toNat)

/-- The least exponent that 32 bits with a sign do not hold. -/
def exponentBound : Nat := 2147483648

/-- The size of the fractional number that a numeral stands for.  Exponents beyond 32 bits are
taken for infinite. -/
def size (n : Numeral) : Option Float :=
  let (significand, left) := gather 0 n.whole
  let (significand, taken) := match n.fraction with
    | none => (significand, 0)
    | some ds =>
      let (significand, left) := gather significand ds
      (significand, ds.length - left.length)
  let place : Int := left.length - taken
  match n.exponent with
  | none => scale significand place
  | some (negative, ds) =>
    let e := Text.ofDigits 10 ds
    if e < exponentBound then scale significand (if negative then place - e else place + e)
    else if negative ∨ significand = 0 then some 0
    else none

/-- The number that a numeral stands for; none if it is out of range. -/
def value (n : Numeral) : Option Number :=
  let whole := Text.ofDigits 10 n.whole
  let bound := if n.negative then UInt64.size / 2 + 1 else UInt64.size
  if n.fraction.isNone ∧ n.exponent.isNone ∧ whole < bound ∧ ¬ (n.negative ∧ whole = 0) then
    some (.integer (if n.negative then -whole else whole))
  else
    n.size.map fun x => .fraction (if n.negative then -x else x)

end Numeral

/-- The number at the start of a text. -/
def Number.scan (cs : List Char) : Except Fault (Number × List Char) := do
  let (n, rest) ← Numeral.scan cs
  match n.value with
  | none => .error .malformed
  | some v => .ok (v, rest)

/-- What follows the number at the start of a text, whatever its value.  A number that breaks off
counts as malformed here. -/
def Number.skip (cs : List Char) : Except Fault (List Char) :=
  match Numeral.scan cs with
  | .error _ => .error .malformed
  | .ok (_, rest) => .ok rest

end Mosaic.Json
