import Mosaic.Config
import Mosaic.Text.Blank
import Mosaic.Text.Digit

/-!
# Overriding settings by variables

Each setting has a variable.  The value of a variable is stripped of blanks at both ends; limits are
decimal numbers of 32 bits, perhaps with a plus sign, and orientations are names in either case.
All malformed values are complained of together, and before any limit that is zero.
-/

namespace Mosaic.Config

/-- The variable for the most columns. -/
def columnsVariable : String := "TESSEL_MAX_COLUMNS"

/-- The variable for the most rows. -/
def rowsVariable : String := "TESSEL_MAX_ROWS"

/-- The variable for the orientation. -/
def orientationVariable : String := "TESSEL_ORIENTATION"

/-- The number that one digit or more stand for, if 32 bits hold it. -/
def limitOfDigits? (cs : List Char) : Option UInt32 :=
  match cs.mapM Text.digit? with
  | none | some [] => none
  | some ds =>
    let n := Text.ofDigits 10 ds
    if n < UInt32.size then some (.ofNat n) else none

/-- The limit that the value of a variable stands for. -/
def limitOfText? (raw : String) : Option UInt32 :=
  match Text.trim raw.toList with
  | '+' :: ds => limitOfDigits? ds
  | ds => limitOfDigits? ds

/-- The orientation that the value of a variable stands for. -/
def orientationOfText? (raw : String) : Option Orientation :=
  Orientation.ofName? (String.ofList ((Text.trim raw.toList).map Char.toLower))

/-- A setting after its variable has been looked up, and the complaint if that is malformed. -/
def overridden {β : Type} (value : Option String) (read : String → Option β)
    (complaint : String → Complaint) (current : β) : β × List Complaint :=
  match value with
  | none => (current, [])
  | some raw =>
    match read raw with
    | some b => (b, [])
    | none => (current, [complaint raw])

/-- The settings after all variables have been looked up. -/
def override (c : Config) (lookup : String → Option String) : Except ConfigFault Config :=
  let (columns, bad₁) := overridden (lookup columnsVariable) limitOfText?
    (.notANumber columnsVariable) c.limits.columns
  let (rows, bad₂) := overridden (lookup rowsVariable) limitOfText?
    (.notANumber rowsVariable) c.limits.rows
  let (orientation, bad₃) := overridden (lookup orientationVariable) orientationOfText?
    (.notAnOrientation orientationVariable) c.orientation
  if bad₁ ++ bad₂ ++ bad₃ = [] then validated ⟨⟨columns, rows⟩, orientation⟩
  else .error (.invalid (bad₁ ++ bad₂ ++ bad₃))

end Mosaic.Config
