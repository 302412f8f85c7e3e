import Mosaic.Json.Fault

/-!
# Texts in JSON

Reads a text up to its closing quote.  A text that is only skipped may hold code points that stand
for no character; one that is read may not.
-/

namespace Mosaic.Json.Quoted

/-- The value of four digits to base sixteen. -/
def hex? (a b c d : Char) : Option Nat := do
  return Text.ofDigits 16 (← [a, b, c, d].mapM Text.hexDigit?)

/-- The four digits after the letter of an escape.  They count as cut off when fewer than four bytes
are left, whatever these are. -/
def codeUnit (cs : List Char) : Except Fault (Nat × List Char) :=
  match cs with
  | a :: b :: c :: d :: rest =>
    match hex? a b c d with
    | none => .error .malformed
    | some n => .ok (n, rest)
  | _ =>
    if cs.foldl (fun n c => n + c.utf8Size) 0 < 4 then .error .truncated else .error .malformed

/-- The character of an escape of one letter. -/
def simpleEscape? : Char → Option Char
  | '"' => some '"'
  | '\\' => some '\\'
  | '/' => some '/'
  | 'b' => some '\x08'
  | 'f' => some '\x0c'
  | 'n' => some '\n'
  | 'r' => some '\r'
  | 't' => some '\t'
  | _ => none

/-- The second half of a character written as a pair of code units. -/
def secondUnit (first : Nat) (cs : List Char) : Except Fault (Char × List Char) :=
  match cs with
  | [] => .error .truncated
  | '\\' :: [] => .error .truncated
  | '\\' :: 'u' :: rest => do
    let (second, rest) ← codeUnit rest
    if 0xDC00 ≤ second ∧ second ≤ 0xDFFF then
      .ok (Char.ofNat (0x10000 + (first - 0xD800) * 0x400 + (second - 0xDC00)), rest)
    else .error .malformed
  | _ => .error .malformed

/-- The character of an escape, after its backslash. -/
def escaped (cs : List Char) : Except Fault (Char × List Char) :=
  match cs with
  | [] => .error .truncated
  | 'u' :: rest => do
    let (unit, rest) ← codeUnit rest
    if 0xDC00 ≤ unit ∧ unit ≤ 0xDFFF then .error .malformed
    else if 0xD800 ≤ unit ∧ unit ≤ 0xDBFF then secondUnit unit rest
    else .ok (Char.ofNat unit, rest)
  | c :: rest =>
    match simpleEscape? c with
    | none => .error .malformed
    | some c => .ok (c, rest)

/-- What follows an escape, after its backslash. -/
def afterEscape (cs : List Char) : Except Fault (List Char) :=
  match cs with
  | [] => .error .truncated
  | 'u' :: rest => do
    let (_, rest) ← codeUnit rest
    .ok rest
  | c :: rest => if (simpleEscape? c).isSome then .ok rest else .error .malformed

/-- Reads up to the closing quote, in at most the given number of steps. -/
def readWithin : Nat → List Char → Except Fault (List Char × List Char)
  | _, [] => .error .truncated
  | 0, _ => .error .truncated
  | n + 1, c :: rest =>
    if c = '"' then .ok ([], rest)
    else if c = '\\' then do
      let (d, rest) ← escaped rest
      let (ds, rest) ← readWithin n rest
      .ok (d :: ds, rest)
    else if c < ' ' then .error .malformed
    else do
      let (ds, rest) ← readWithin n rest
      .ok (c :: ds, rest)

/-- Skips up to the closing quote, in at most the given number of steps. -/
def skipWithin : Nat → List Char → Except Fault (List Char)
  | _, [] => .error .truncated
  | 0, _ => .error .truncated
  | n + 1, c :: rest =>
    if c = '"' then .ok rest
    else if c = '\\' then do
      let rest ← afterEscape rest
      skipWithin n rest
    else if c < ' ' then .error .malformed
    else skipWithin n rest

/-- The text up to the closing quote.  Every step takes a character, so the length of the text is
enough. -/
def read (cs : List Char) : Except Fault (String × List Char) := do
  let (s, rest) ← readWithin cs.length cs
  .ok (String.ofList s, rest)

/-- What follows the closing quote. -/
def skip (cs : List Char) : Except Fault (List Char) :=
  skipWithin cs.length cs

end Mosaic.Json.Quoted
