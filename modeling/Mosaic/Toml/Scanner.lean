/-!
# Scanners of TOML texts

A scanner takes a part from the front of a text, or fails and leaves the text as it was.  Here are
the scanners of characters, blanks, comments and ends of lines.
-/

namespace Mosaic.Toml

/-- Takes a part from the front of a text. -/
abbrev Scanner (β : Type) := StateT (List Char) Option β

namespace Scanner

variable {β : Type}

/-! ### Characters -/

/-- The first character, which stays in the text. -/
def peek? : Scanner (Option Char) := do
  return (← get).head?

/-- The first character, if it is in a class. -/
def one (p : Char → Bool) : Scanner Char := fun cs =>
  match cs with
  | [] => none
  | c :: rest => if p c then some (c, rest) else none

/-- The given character. -/
def char (c : Char) : Scanner Unit := do
  let _ ← one (· = c)

/-- The given characters. -/
def word (letters : List Char) : Scanner Unit :=
  letters.forM char

/-- All characters in a class. -/
def many (p : Char → Bool) : Scanner (List Char) :=
  modifyGet fun cs => (cs.takeWhile p, cs.dropWhile p)

/-- A part that may be absent. -/
def optional (s : Scanner β) : Scanner (Option β) :=
  (some <$> s) <|> pure none

/-- Fails unless the condition holds. -/
def require (p : Bool) : Scanner Unit :=
  if p then pure () else failure

/-! ### Blanks and comments -/

/-- A character within a line, outside of texts. -/
def isBlank (c : Char) : Bool :=
  c = ' ' ∨ c = '\t'

/-- A character that a comment may hold. -/
def inComment (c : Char) : Bool :=
  c = '\t' ∨ (' ' ≤ c ∧ c ≤ '~') ∨ 0x80 ≤ c.toNat

/-- Passes over blanks. -/
def blanks : Scanner Unit := do
  let _ ← many isBlank

/-- The end of a line within the text. -/
def newline : Scanner Unit :=
  char '\n' <|> word ['\r', '\n']

/-- A comment, without the end of its line. -/
def comment : Scanner Unit := do
  char '#'
  let _ ← many inComment

/-- The end of a line or of the text. -/
def lineEnd : Scanner Unit := do
  if (← get).isEmpty then pure () else newline

/-- What may follow on a line: blanks, and perhaps a comment. -/
def restOfLine : Scanner Unit := do
  blanks
  let _ ← optional comment
  lineEnd

/-- A part as often as it follows, in at most the given number of steps. -/
def repeatWithin (part : Scanner Unit) : Nat → Scanner Unit
  | 0 => pure ()
  | n + 1 => do
    if (← optional part).isSome then repeatWithin part n

/-- Blanks and ends of lines. -/
def gap : Scanner Unit := do
  repeatWithin (one isBlank *> pure () <|> newline) (← get).length

/-- Blanks, ends of lines, and comments that end with their line. -/
def filler : Scanner Unit := do
  repeatWithin (one isBlank *> pure () <|> newline <|> (comment *> newline)) (← get).length

end Scanner

end Mosaic.Toml
