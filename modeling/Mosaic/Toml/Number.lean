import Mosaic.Decimal.Nearest
import Mosaic.Text.Digit
import Mosaic.Toml.Scanner

/-!
# Numbers in TOML

Whole numbers to four bases, and numbers with a fraction or an exponent.  Digits may be separated by
low lines, and decimal numbers have no leading zeros.
-/

namespace Mosaic.Toml.Scanner

/-- Digits, which may be separated by single low lines, in at most the given number of steps. -/
def digitsWithin (digit? : Char → Option Nat) : Nat → Scanner (List Nat)
  | 0 => pure []
  | n + 1 => do
    match ← optional (optional (char '_') *> one fun c => (digit? c).isSome) with
    | none => return []
    | some c => return (digit? c).toList ++ (← digitsWithin digit? n)

/-- One digit or more, which may be separated by single low lines. -/
def digits (digit? : Char → Option Nat) : Scanner (List Nat) := do
  let c ← one fun c => (digit? c).isSome
  return (digit? c).toList ++ (← digitsWithin digit? (← get).length)

/-- A sign: whether it is negative. -/
def sign : Scanner Bool := do
  match ← optional (one fun c => c = '+' || c = '-') with
  | some '-' => return true
  | _ => return false

/-- A whole number without leading zeros: whether it is negative, and its digits. -/
def whole : Scanner (Bool × List Nat) := do
  let negative ← sign
  if (← peek?) = some '0' then
    char '0'
    return (negative, [0])
  else return (negative, ← digits Text.digit?)

/-- An exponent of ten. -/
def exponent : Scanner Int := do
  let _ ← one fun c => c = 'e' || c = 'E'
  let negative ← sign
  let ds ← digits Text.digit?
  return if negative then -(Text.ofDigits 10 ds : Int) else Text.ofDigits 10 ds

/-- A fraction, an exponent or both: the digits of the fraction, and the exponent. -/
def fractionOrExponent : Scanner (List Nat × Int) :=
  (do return ([], ← exponent)) <|> (do
    char '.'
    let ds ← digits Text.digit?
    return (ds, (← optional exponent).getD 0))

/-- A number with a fraction or an exponent.  It may not be too large for a double, though it may be
too small for a negative one. -/
def decimal : Scanner Float := do
  let (negative, ds) ← whole
  let (fs, e) ← fractionOrExponent
  let x := Decimal.nearest ⟨Text.ofDigits 10 (ds ++ fs), e - fs.length⟩
  require (negative || !x.isInf)
  return if negative then -x else x

/-- A number that is infinite, or none at all. -/
def special : Scanner Float := do
  let negative ← sign
  let x ← (word ['i', 'n', 'f'] *> pure (1 / 0)) <|> (word ['n', 'a', 'n'] *> pure (0 / 0))
  return if negative then -x else x

/-- A whole number to another base, after a zero and a letter. -/
def based (letter : Char) (base : Nat) : Scanner Int := do
  word ['0', letter]
  let ds ← digits fun c => (Text.hexDigit? c).filter (· < base)
  return Text.ofDigits base ds

/-- The least number that 64 bits with a sign do not hold. -/
def integerBound : Int := 9223372036854775808

/-- A whole number that 64 bits with a sign hold. -/
def integer : Scanner Int := do
  let i ← based 'x' 16 <|> based 'o' 8 <|> based 'b' 2 <|> (do
    let (negative, ds) ← whole
    return if negative then -(Text.ofDigits 10 ds : Int) else Text.ofDigits 10 ds)
  require (-integerBound ≤ i ∧ i < integerBound)
  return i

end Mosaic.Toml.Scanner
