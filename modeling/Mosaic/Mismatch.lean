import Mosaic.Refusal
import Mosaic.Text.Quoted

/-!
# Values that do not fit

What was found where something else was needed, while values are read into records.  The kinds of
values are common to all formats; only fractional numbers are written as each format writes them.
-/

namespace Mosaic

/-- What a value is, as far as a message tells. -/
inductive Found where
  | null
  | boolean (b : Bool)
  | integer (i : Int)
  | fraction (x : Float)
  | text (s : String)
  | sequence
  | map
  deriving DecidableEq

/-- What is needed in a place. -/
inductive Needed where
  | word32
  | word64
  | double
  | text
  | sequence
  | unit
  | record (name : String)
  | fields (name : String) (count : Nat)
  deriving DecidableEq

/-- How a value does not fit. -/
inductive Mismatch where
  | wrongType (found : Found) (needed : Needed)
  | outOfRange (found : Int) (needed : Needed)
  | wrongLength (found : Nat) (needed : Needed)
  | unknownField (name : String) (known : List String)
  | unknownVariant (name : String) (known : List String)
  | missingField (name : String)
  | repeatedField (name : String)
  | refused (reason : Refusal)
  deriving DecidableEq

/-- The value in words, with fractional numbers written by the given function. -/
def Found.describe (fraction : Float → String) : Found → String
  | null => "null"
  | boolean b => s!"boolean `{b}`"
  | integer i => s!"integer `{i}`"
  | .fraction x => s!"floating point `{fraction x}`"
  | text s => s!"string {Text.quote s}"
  | sequence => "sequence"
  | map => "map"

/-- The need in words. -/
def Needed.describe : Needed → String
  | word32 => "u32"
  | word64 => "u64"
  | double => "f64"
  | text => "a string"
  | sequence => "a sequence"
  | unit => "unit"
  | record name => s!"struct {name}"
  | fields name count => s!"struct {name} with {count} element" ++ if count = 1 then "" else "s"

/-- Some names, any of which would do. -/
def describeNames (names : List String) : String :=
  match names.map fun n => s!"`{n}`" with
  | [a] => a
  | [a, b] => s!"{a} or {b}"
  | quoted => "one of " ++ String.intercalate ", " quoted

/-- The mismatch in words, with fractional numbers written by the given function. -/
def Mismatch.message (fraction : Float → String) : Mismatch → String
  | wrongType found needed =>
    s!"invalid type: {found.describe fraction}, expected {needed.describe}"
  | outOfRange i needed => s!"invalid value: integer `{i}`, expected {needed.describe}"
  | wrongLength n needed => s!"invalid length {n}, expected {needed.describe}"
  | unknownField name known => s!"unknown field `{name}`, expected {describeNames known}"
  | unknownVariant name known => s!"unknown variant `{name}`, expected {describeNames known}"
  | missingField name => s!"missing field `{name}`"
  | repeatedField name => s!"duplicate field `{name}`"
  | refused reason => reason.message

end Mosaic
