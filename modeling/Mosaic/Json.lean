import Mosaic.Decimal.Style
import Mosaic.Text.Quoted

/-!
# JSON values

The values that layouts, handles, reports and settings are written as, and their compact text: no
blanks, members in the order given, characters as they are where the format allows it.
-/

namespace Mosaic

/-- A value to be written. -/
inductive Json where
  | null
  | natural (n : Nat)
  | number (x : Float)
  | text (s : String)
  | array (items : List Json)
  | object (members : List (String × Json))

namespace Json

/-- Fractional numbers have a fraction or an exponent, the latter from 10¹⁶ on and below 10⁻⁵, and
what has no decimal is null. -/
def numberStyle : Decimal.Style where
  tie := .even
  positional e := -5 ≤ e ∧ e ≤ 15
  wholeFraction := true
  plusSign := "+"
  infinity := "null"
  notANumber := "null"
  signedInfinity := false

/-- One character between the quotes. -/
def escape (c : Char) : List Char :=
  if c = '"' then ['\\', '"']
  else if c = '\\' then ['\\', '\\']
  else if c = '\x08' then ['\\', 'b']
  else if c = '\t' then ['\\', 't']
  else if c = '\n' then ['\\', 'n']
  else if c = '\x0c' then ['\\', 'f']
  else if c = '\r' then ['\\', 'r']
  else if c < ' ' then ['\\', 'u', '0', '0'] ++ (if c.toNat < 16 then ['0'] else []) ++ Text.hex c.toNat
  else [c]

/-- A text between quotes. -/
def quote (s : String) : List Char :=
  '"' :: s.toList.flatMap escape ++ ['"']

mutual

/-- The characters of a value. -/
def chars : Json → List Char
  | null => ['n', 'u', 'l', 'l']
  | natural n => (Nat.repr n).toList
  | number x => (numberStyle.write x).toList
  | text s => quote s
  | array items => '[' :: charsOfItems items ++ [']']
  | object members => '\x7b' :: charsOfMembers members ++ ['\x7d']

/-- The items of an array, separated by commas. -/
def charsOfItems : List Json → List Char
  | [] => []
  | [v] => v.chars
  | v :: rest => v.chars ++ ',' :: charsOfItems rest

/-- The members of an object, separated by commas. -/
def charsOfMembers : List (String × Json) → List Char
  | [] => []
  | [(k, v)] => quote k ++ ':' :: v.chars
  | (k, v) :: rest => quote k ++ ':' :: v.chars ++ ',' :: charsOfMembers rest

end

/-- The text of a value. -/
def render (v : Json) : String :=
  String.ofList v.chars

/-- The value or null. -/
def ofOption {β : Type} (f : β → Json) : Option β → Json
  | none => null
  | some b => f b

end Json

end Mosaic
