import Mosaic.Json.Reader

/-!
# Passing over JSON values

A value of any kind is passed over without being kept.  The format is checked, and the meaning is
not: numbers may be out of range, and texts may hold code points that stand for no character.
-/

namespace Mosaic.Json.Reader

/-- Passes over a text, after its opening quote. -/
def skipText : Reader Unit :=
  ofScanner fun cs => (Quoted.skip cs).map fun rest => ((), rest)

/-- Passes over a number. -/
def skipNumber : Reader Unit :=
  ofScanner fun cs => (Number.skip cs).map fun rest => ((), rest)

mutual

/-- Passes over a value, in at most the given number of steps. -/
def skipWithin : Nat → Reader Unit
  | 0 => throw .truncated
  | n + 1 => do
    match ← peek with
    | 'n' => word ['n', 'u', 'l', 'l']
    | 't' => word ['t', 'r', 'u', 'e']
    | 'f' => word ['f', 'a', 'l', 's', 'e']
    | '"' => advance; skipText
    | '[' =>
      advance
      if (← peek) = ']' then advance else skipItems n
    | '\x7b' =>
      advance
      if (← peek) = '\x7d' then advance else skipMembers n
    | c => if c = '-' ∨ Text.isDigit c then skipNumber else throw .malformed

/-- Passes over items up to the closing bracket. -/
def skipItems : Nat → Reader Unit
  | 0 => throw .truncated
  | n + 1 => do
    skipWithin n
    match ← peek with
    | ',' => advance; skipItems n
    | ']' => advance
    | _ => throw .malformed

/-- Passes over members up to the closing brace. -/
def skipMembers : Nat → Reader Unit
  | 0 => throw .truncated
  | n + 1 => do
    expect '"'
    skipText
    expect ':'
    skipWithin n
    match ← peek with
    | ',' => advance; skipMembers n
    | '\x7d' => advance
    | _ => throw .malformed

end

/-- Passes over a value.  Of any two steps one takes a character, so twice the length of the text is
enough. -/
def skipValue : Reader Unit := do
  skipWithin (2 * (← get).length + 1)

end Mosaic.Json.Reader
