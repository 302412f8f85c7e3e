import Mosaic.Toml
import Mosaic.Toml.Moment
import Mosaic.Toml.Number
import Mosaic.Toml.Text

/-!
# TOML documents

Reads the lines of a document and builds the table that they define.  Arrays and inline tables nest
at most 79 deep, and a key has at most 79 parts.
-/

namespace Mosaic.Toml

namespace Scanner

/-! ### Keys -/

/-- A character of a key without quotes. -/
def inBareKey (c : Char) : Bool :=
  c.isAlphanum || c = '-' || c = '_'

/-- One part of a key. -/
def keyPart : Scanner String :=
  basic <|> literal <|> (do
    let c ← one inBareKey
    return String.ofList (c :: (← many inBareKey)))

/-- The parts of a key, with blanks around them, in at most the given number of steps. -/
def keyPartsWithin : Nat → Scanner (List String)
  | 0 => failure
  | n + 1 => do
    blanks
    let part ← keyPart
    blanks
    match ← optional (char '.') with
    | none => return [part]
    | some () => return part :: (← keyPartsWithin n)

/-- A key: the path before its last part, and that part. -/
def key : Scanner (List String × String) := do
  let parts ← keyPartsWithin 79
  match parts.getLast? with
  | none => failure
  | some last => return (parts.dropLast, last)

/-! ### Values -/

/-- Items up to the closing bracket, in at most the given number of steps. -/
def itemsWithin (item : Scanner Value) : Nat → Scanner (List Value)
  | 0 => failure
  | n + 1 => do
    filler
    match ← optional (char ']') with
    | some () => return []
    | none =>
      let v ← item
      filler
      match ← optional (char ',') with
      | some () => return v :: (← itemsWithin item n)
      | none =>
        char ']'
        return [v]

/-- An array, which may end in a comma. -/
def array (item : Scanner Value) : Scanner Value := do
  char '['
  return .array (← itemsWithin item (← get).length)

/-- A key, an equals sign, and a value. -/
def assignment (item : Scanner Value) : Scanner Assignment := do
  let (path, last) ← key
  char '='
  blanks
  return (path, last, ← item)

/-- Assignments up to the closing brace, in at most the given number of steps. -/
def assignmentsWithin (item : Scanner Value) : Nat → Scanner (List Assignment)
  | 0 => failure
  | n + 1 => do
    let a ← assignment item
    blanks
    match ← optional (char ',') with
    | some () => return a :: (← assignmentsWithin item n)
    | none =>
      char '\x7d'
      return [a]

/-- A table on one line. -/
def inlineTable (item : Scanner Value) : Scanner Value := do
  char '\x7b'
  blanks
  let as ← match ← optional (char '\x7d') with
    | some () => pure []
    | none => assignmentsWithin item (← get).length
  match assignAll as [] with
  | none => failure
  | some es => return .table .inline es

/-- A value without parts. -/
def plain : Scanner Value :=
  Value.text <$> text <|>
  moment *> pure .moment <|>
  Value.fraction <$> decimal <|>
  Value.fraction <$> special <|>
  Value.integer <$> integer <|>
  word ['t', 'r', 'u', 'e'] *> pure (.boolean true) <|>
  word ['f', 'a', 'l', 's', 'e'] *> pure (.boolean false)

/-- A value in which arrays and inline tables nest so deep. -/
def value : Nat → Scanner Value
  | 0 => plain
  | n + 1 => array (value n) <|> inlineTable (value n) <|> plain

/-! ### Lines -/

/-- A heading between brackets, or between double ones. -/
def heading : Scanner Heading := do
  match ← optional (word ['[', '[']) with
  | some () =>
    let (path, last) ← key
    word [']', ']']
    return ⟨true, path, last⟩
  | none =>
    char '['
    let (path, last) ← key
    char ']'
    return ⟨false, path, last⟩

/-- One line, with nothing to show for a blank one or a comment. -/
def line : Scanner (Option Line) := do
  blanks
  match ← peek? with
  | some '[' =>
    let h ← heading
    restOfLine
    return some (.heading h)
  | none | some '#' | some '\n' | some '\r' =>
    restOfLine
    return none
  | _ =>
    let a ← assignment (value 79)
    restOfLine
    return some (.assignment a)

/-- All lines, in at most the given number of steps. -/
def linesWithin : Nat → Scanner (List Line)
  | 0 => failure
  | n + 1 => do
    if (← get).isEmpty then return []
    else
      let l ← line
      return l.toList ++ (← linesWithin n)

end Scanner

/-- The text without the mark that may precede it. -/
def withoutMark : List Char → List Char
  | '\uFEFF' :: rest => rest
  | cs => cs

/-- The table that a document defines. -/
def read (s : String) : Option Entries := do
  let cs := withoutMark s.toList
  let (lines, _) ← (Scanner.linesWithin (cs.length + 1)).run cs
  ofLines lines

end Mosaic.Toml
