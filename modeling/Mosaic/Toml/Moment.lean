import Mosaic.Text.Digit
import Mosaic.Toml.Scanner

/-!
# Dates and times in TOML

Dates, times of day, and both together.  Their form and the ranges of their parts are checked; what
day or time it is makes no difference to any answer.
-/

namespace Mosaic.Toml.Scanner

/-- A number of so many digits, within bounds. -/
def digitsBetween (count low high : Nat) : Scanner Nat := do
  let ds ← (List.replicate count ()).mapM fun _ => one Text.isDigit
  let n := Text.ofDigits 10 (ds.filterMap Text.digit?)
  require (low ≤ n ∧ n ≤ high)
  return n

/-- The number of days in a month. -/
def daysIn (year month : Nat) : Nat :=
  if month = 2 then
    if (year % 4 = 0 ∧ year % 100 ≠ 0) ∨ year % 400 = 0 then 29 else 28
  else if month = 4 ∨ month = 6 ∨ month = 9 ∨ month = 11 then 30
  else 31

/-- A day. -/
def date : Scanner Unit := do
  let year ← digitsBetween 4 0 9999
  char '-'
  let month ← digitsBetween 2 1 12
  char '-'
  let _ ← digitsBetween 2 1 (daysIn year month)

/-- A time of day, in which a minute may have a leap second. -/
def time : Scanner Unit := do
  let _ ← digitsBetween 2 0 23
  char ':'
  let _ ← digitsBetween 2 0 59
  char ':'
  let _ ← digitsBetween 2 0 60
  let _ ← optional do
    char '.'
    let _ ← one Text.isDigit
    many Text.isDigit

/-- The distance of a time from the universal one. -/
def offset : Scanner Unit :=
  (do let _ ← one fun c => c = 'Z' || c = 'z') <|> (do
    let _ ← one fun c => c = '+' || c = '-'
    let _ ← digitsBetween 2 0 23
    char ':'
    let _ ← digitsBetween 2 0 59)

/-- A date, a time of day, or both. -/
def moment : Scanner Unit :=
  (do
    date
    let _ ← optional do
      let _ ← one fun c => c = 'T' || c = 't' || c = ' '
      time
      optional offset) <|> time

end Mosaic.Toml.Scanner
