import Mosaic.Text.Digit
import Mosaic.Text.Extending
import Mosaic.Text.Unprintable

/-!
# Quoted texts

A text between double quotes, in which everything that cannot be seen on its own is spelled out:
quotes and backslashes are preceded by a backslash, four controls have a letter, and unprintable or
extending characters are written by their code point.
-/

namespace Mosaic.Text

/-- One character between the quotes. -/
def quoteChar (c : Char) : List Char :=
  if c = '"' then ['\\', '"']
  else if c = '\\' then ['\\', '\\']
  else if c = '\t' then ['\\', 't']
  else if c = '\n' then ['\\', 'n']
  else if c = '\r' then ['\\', 'r']
  else if c = '\x00' then ['\\', '0']
  else if unprintable.contains c ∨ extending.contains c then
    ['\\', 'u', '\x7b'] ++ hex c.toNat ++ ['\x7d']
  else [c]

/-- The quoted text. -/
def quote (s : String) : String :=
  String.ofList ('"' :: s.toList.flatMap quoteChar ++ ['"'])

end Mosaic.Text
