import Mosaic.Binary64

/-!
# Shortest decimals

A finite double stands for all real numbers that round to it.  Its shortest decimal is the one with
the fewest digits among these, and of several with equally few digits the one nearest to the double.

* `Decimal.Interval`: the numbers that round to a double, as fractions with one denominator.
* `Decimal.Interval.onGrid? k`: the nearest multiple of `10 ^ k` in the interval.  If the interval
  has such a multiple at all, then one of the two around the double is in it.
* `Decimal.Interval.shortest`: the first hit on grids that get finer.
-/

namespace Mosaic

/-- A natural number times a power of ten. -/
structure Decimal where
  digits : Nat
  exponent : Int
  deriving DecidableEq

namespace Decimal

/-- Which of two equally near decimals is taken. -/
inductive Tie where
  | up
  | even
  deriving DecidableEq

/-- A positive number, and the bounds between which numbers round to it. -/
structure Interval where
  low : Nat
  value : Nat
  high : Nat
  denominator : Nat
  /-- Whether the bounds themselves belong to the interval. -/
  closed : Bool

namespace Interval

/-- The interval of the double `mantissa * 2 ^ exponent`.  Below a power of two the doubles are
twice as dense, so there the lower bound is nearer. -/
def ofBinary (mantissa : Nat) (exponent : Int) (afterPower : Bool) : Interval :=
  let scale := Nat.pow 2 (exponent - 2).toNat
  { low := (4 * mantissa - if afterPower then 1 else 2) * scale
    value := 4 * mantissa * scale
    high := (4 * mantissa + 2) * scale
    denominator := Nat.pow 2 (2 - exponent).toNat
    closed := mantissa % 2 == 0 }

/-- The interval of a positive finite double of the given magnitude. -/
def ofMagnitude (magnitude : Nat) : Interval :=
  let exponent : Nat := magnitude / Binary64.fractions
  let fraction := magnitude % Binary64.fractions
  if exponent = 0 then ofBinary fraction (-1074) false
  else ofBinary (Binary64.fractions + fraction) ((exponent : Int) - 1075)
    (fraction = 0 ∧ 1 < exponent)

/-- The multiple of `10 ^ k` in the interval that is nearest to its number. -/
def onGrid? (r : Interval) (tie : Tie) (k : Int) : Option Nat :=
  let unit := r.denominator * Nat.pow 10 k.toNat
  let factor := Nat.pow 10 (-k).toNat
  let inside (n : Nat) : Bool :=
    if r.closed then r.low * factor ≤ n * unit ∧ n * unit ≤ r.high * factor
    else r.low * factor < n * unit ∧ n * unit < r.high * factor
  let below := r.value * factor / unit
  let above := below + 1
  match inside below, inside above with
  | false, false => none
  | true, false => some below
  | false, true => some above
  | true, true =>
    match compare (r.value * factor - below * unit) (above * unit - r.value * factor) with
    | .lt => some below
    | .gt => some above
    | .eq =>
      match tie with
      | .up => some above
      | .even => some (if below % 2 = 0 then below else above)

/-- An exponent of ten that is above the number by one or two at most. -/
def magnitude (r : Interval) : Int :=
  if r.denominator ≤ r.value then (Nat.repr (r.value / r.denominator)).length
  else 2 - (Nat.repr (r.denominator / r.value)).length

/-- The shortest decimal in the interval.  Seventeen digits tell all doubles apart, so one of the
grids searched has a hit. -/
def shortest (r : Interval) (tie : Tie) : Decimal :=
  ((List.range 20).findSome? fun (i : Nat) =>
    (r.onGrid? tie (r.magnitude - i)).map fun n => ⟨n, r.magnitude - i⟩).getD ⟨0, 0⟩

end Interval

/-- The shortest decimal of a finite double, without its sign. -/
def shortest (tie : Tie) (x : Float) : Decimal :=
  if Binary64.magnitude x = 0 then ⟨0, 0⟩
  else (Interval.ofMagnitude (Binary64.magnitude x)).shortest tie

end Decimal

end Mosaic
