import Mosaic.Text.Digit
import Mosaic.Toml.Scanner

/-!
# Texts in TOML

A text stands between double quotes, with escapes, or between single quotes, as it is; three quotes
allow it to go over several lines.
-/

namespace Mosaic.Toml.Scanner

/-- A character that stands for itself between double quotes. -/
def inBasic (c : Char) : Bool :=
  inComment c && c ≠ '"' && c ≠ '\\'

/-- A character that stands for itself between single quotes. -/
def inLiteral (c : Char) : Bool :=
  inComment c && c ≠ '\''

/-- The character with the code point given by so many digits to base sixteen. -/
def codePoint (count : Nat) : Scanner Char := do
  let ds ← (List.replicate count ()).mapM fun _ => one fun c => (Text.hexDigit? c).isSome
  let n := Text.ofDigits 16 (ds.filterMap Text.hexDigit?)
  if n.isValidChar then return Char.ofNat n else failure

/-- The character of an escape, after its backslash. -/
def escaped : Scanner Char := do
  match ← one fun _ => true with
  | 'b' => return '\x08'
  | 't' => return '\t'
  | 'n' => return '\n'
  | 'f' => return '\x0c'
  | 'r' => return '\r'
  | '"' => return '"'
  | '\\' => return '\\'
  | 'u' => codePoint 4
  | 'U' => codePoint 8
  | _ => failure

/-- A text between double quotes, after the first of them, in at most the given number of steps. -/
def basicWithin : Nat → Scanner (List Char)
  | 0 => failure
  | n + 1 => do
    match ← one fun c => inBasic c || c = '"' || c = '\\' with
    | '"' => return []
    | '\\' =>
      let c ← escaped
      return c :: (← basicWithin n)
    | c => return c :: (← basicWithin n)

/-- A text between double quotes on one line. -/
def basic : Scanner String := do
  char '"'
  return String.ofList (← basicWithin (← get).length)

/-- A text between single quotes on one line. -/
def literal : Scanner String := do
  char '\''
  let s ← many inLiteral
  char '\''
  return String.ofList s

/-- The quotes at this point, if they close a text of several lines: three of them, before which up
to two more belong to the text. -/
def closing (quote : Char) : Scanner (List Char) := fun cs =>
  let n := min (cs.takeWhile (· = quote)).length 5
  if n < 3 then none else some (List.replicate (n - 3) quote, cs.drop n)

/-- A backslash that ends a line, with all blanks and ends of lines after it. -/
def continuation : Scanner Unit := do
  char '\\'
  blanks
  newline
  gap

/-- A text of several lines between double quotes, after the first of them, in at most the given
number of steps. -/
def longBasicWithin : Nat → Scanner (List Char)
  | 0 => failure
  | n + 1 =>
    closing '"' <|> (do
      let c ← (newline *> pure ['\n']) <|> (continuation *> pure []) <|>
        (do char '\\'; return [← escaped]) <|> (do return [← one fun c => inBasic c || c = '"'])
      return c ++ (← longBasicWithin n))

/-- A text of several lines between single quotes, after the first of them, in at most the given
number of steps. -/
def longLiteralWithin : Nat → Scanner (List Char)
  | 0 => failure
  | n + 1 =>
    closing '\'' <|> (do
      let c ← (newline *> pure '\n') <|> one fun c => inLiteral c || c = '\''
      return c :: (← longLiteralWithin n))

/-- A text of several lines, which may begin with the end of a line that does not count. -/
def long : Scanner String := do
  match ← optional (word ['"', '"', '"']) with
  | some () =>
    let _ ← optional newline
    return String.ofList (← longBasicWithin ((← get).length + 1))
  | none =>
    word ['\'', '\'', '\'']
    let _ ← optional newline
    return String.ofList (← longLiteralWithin ((← get).length + 1))

/-- A text of any kind. -/
def text : Scanner String :=
  long <|> basic <|> literal

end Mosaic.Toml.Scanner
