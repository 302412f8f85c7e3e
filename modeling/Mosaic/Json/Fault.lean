import Mosaic.Json
import Mosaic.Mismatch

/-!
# Faults in JSON texts

Why a text does not yield the record that is read from it.
-/

namespace Mosaic.Json

/-- The first fault met in a text. -/
inductive Fault where
  /-- The text breaks a rule of the format. -/
  | malformed
  /-- The text ends too early. -/
  | truncated
  /-- The text is well formed so far and does not fit the record. -/
  | mismatch (m : Mismatch)
  deriving DecidableEq

/-- The fault in words, for those that are not about the format as such. -/
def Fault.message? : Fault → Option String
  | .mismatch m => some (m.message numberStyle.write)
  | _ => none

end Mosaic.Json
