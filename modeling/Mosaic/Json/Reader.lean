import Mosaic.Json.Numeral
import Mosaic.Json.Quoted

/-!
# Readers of JSON texts

A reader takes a value from the front of a text and stops at the first fault.  Readers know what
they need, so a value that does not fit is noticed before anything after it is looked at.

* `word64`, `word32`, `double`, `text`, `sequence`, `nullable`: readers of plain values.
* `variant`: reads one of several named values.
* `run`: reads a whole text, after which nothing but blanks may follow.
-/

namespace Mosaic.Json

/-- Takes a value from the front of a text. -/
abbrev Reader (β : Type) := StateT (List Char) (Except Fault) β

namespace Reader

variable {β : Type}

/-! ### Characters -/

/-- The four blanks of the format. -/
def isBlank (c : Char) : Bool :=
  c = ' ' ∨ c = '\t' ∨ c = '\n' ∨ c = '\r'

/-- The next character that is not blank, which stays in the text. -/
def peek? : Reader (Option Char) :=
  modifyGet fun cs => ((cs.dropWhile isBlank).head?, cs.dropWhile isBlank)

/-- The next character that is not blank, where the text must go on. -/
def peek : Reader Char := do
  match ← peek? with
  | none => throw .truncated
  | some c => return c

/-- Passes over one character. -/
def advance : Reader Unit :=
  modify (·.drop 1)

/-- Passes over the next character that is not blank, which has to be the given one. -/
def expect (c : Char) : Reader Unit := do
  if (← peek) = c then advance else throw .malformed

/-- Applies a scanner to the rest of the text. -/
def ofScanner (scan : List Char → Except Fault (β × List Char)) : Reader β :=
  fun cs => scan cs

/-- Passes over the letters of a word. -/
def word (letters : List Char) : Reader Unit :=
  letters.forM fun letter => do
    match (← get).head? with
    | none => throw .truncated
    | some c => if c = letter then advance else throw .malformed

/-! ### Plain values -/

/-- What the next value is. -/
def found : Reader Found := do
  match ← peek with
  | 'n' => word ['n', 'u', 'l', 'l']; return .null
  | 't' => word ['t', 'r', 'u', 'e']; return .boolean true
  | 'f' => word ['f', 'a', 'l', 's', 'e']; return .boolean false
  | '"' => advance; return .text (← ofScanner Quoted.read)
  | '[' => return .sequence
  | '\x7b' => return .map
  | c =>
    if c = '-' ∨ Text.isDigit c then
      match ← ofScanner Number.scan with
      | .integer i => return .integer i
      | .fraction x => return .fraction x
    else throw .malformed

/-- Refuses the next value. -/
def reject (needed : Needed) : Reader β := do
  throw (.mismatch (.wrongType (← found) needed))

/-- A number, where one is needed for the given purpose. -/
def number (needed : Needed) : Reader Number := do
  let c ← peek
  if c = '-' ∨ Text.isDigit c then ofScanner Number.scan else reject needed

/-- A whole number below a bound. -/
def wholeBelow (bound : Nat) (needed : Needed) : Reader Nat := do
  match ← number needed with
  | .fraction x => throw (.mismatch (.wrongType (.fraction x) needed))
  | .integer i =>
    if 0 ≤ i ∧ i < bound then return i.toNat else throw (.mismatch (.outOfRange i needed))

/-- A whole number of 64 bits. -/
def word64 : Reader UInt64 := do
  return .ofNat (← wholeBelow UInt64.size .word64)

/-- A whole number of 32 bits. -/
def word32 : Reader UInt32 := do
  return .ofNat (← wholeBelow UInt32.size .word32)

/-- A double, which may be written as a whole number. -/
def double : Reader Float := do
  match ← number .double with
  | .fraction x => return x
  | .integer i => return .ofInt i

/-- A text. -/
def text : Reader String := do
  if (← peek) = '"' then advance; ofScanner Quoted.read else reject .text

/-- The name of a member, in whose place the format admits nothing but a text. -/
def memberName : Reader String := do
  expect '"'
  ofScanner Quoted.read

/-- The value null. -/
def unit : Reader Unit := do
  if (← peek) = 'n' then word ['n', 'u', 'l', 'l'] else reject .unit

/-- The value null, or what a reader takes. -/
def nullable (item : Reader β) : Reader (Option β) := do
  if (← peek?) = some 'n' then word ['n', 'u', 'l', 'l']; return none
  else return some (← item)

/-! ### Sequences -/

/-- Whether another item follows in an array; its first one needs no comma before it. -/
def anotherItem (first : Bool) : Reader Bool := do
  match ← peek with
  | ']' => return false
  | ',' =>
    if first then return true
    advance
    if (← peek) = ']' then throw .malformed else return true
  | _ => if first then return true else throw .malformed

/-- Reads items up to the closing bracket, in at most the given number of steps. -/
def itemsWithin (item : Reader β) : Nat → Bool → Reader (List β)
  | 0, _ => throw .truncated
  | n + 1, first => do
    if ← anotherItem first then
      let b ← item
      return b :: (← itemsWithin item n false)
    else return []

/-- An array of values of one kind. -/
def sequence (item : Reader β) : Reader (List β) := do
  if (← peek) = '[' then
    advance
    let items ← itemsWithin item ((← get).length + 1) true
    expect ']'
    return items
  else reject .sequence

/-! ### Variants -/

/-- The value of a name among those listed. -/
def ofName (values : List β) (name : β → String) (s : String) : Reader β :=
  match values.find? (name · == s) with
  | some b => return b
  | none => throw (.mismatch (.unknownVariant s (values.map name)))

/-- One of several named values: its name, or an object with the name and null. -/
def variant (values : List β) (name : β → String) : Reader β := do
  match ← peek with
  | '"' => advance; ofName values name (← ofScanner Quoted.read)
  | '\x7b' =>
    advance
    let b ← ofName values name (← memberName)
    expect ':'
    unit
    expect '\x7d'
    return b
  | _ => throw .malformed

/-! ### Whole texts -/

/-- Reads a text from its first to its last character. -/
def run (reader : Reader β) (s : String) : Except Fault β :=
  match (do let b ← reader; return (b, ← peek?) : Reader (β × Option Char)) s.toList with
  | .ok ((b, none), _) => .ok b
  | .ok ((_, some _), _) => .error .malformed
  | .error fault => .error fault

end Reader

end Mosaic.Json
