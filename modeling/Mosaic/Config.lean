import Mosaic.Json.Fault
import Mosaic.Layout.Candidates

/-!
# Settings

How many columns and rows a layout may have, and the orientation it prefers.  Settings are read
from several sources; whatever the source, settings that leave no room for a panel are refused, with
one complaint for each limit that is zero.
-/

namespace Mosaic

/-- The settings of a workspace. -/
structure Config where
  limits : Limits
  orientation : Orientation
  deriving DecidableEq

/-- Something wrong with settings or with what overrides them. -/
inductive Complaint where
  | zeroColumns
  | zeroRows
  /-- The value of a variable for a limit is no number. -/
  | notANumber (name raw : String)
  /-- The value of a variable for the orientation names none. -/
  | notAnOrientation (name raw : String)
  deriving DecidableEq

/-- Why a file could not be read. -/
inductive FileFault where
  | missing
  | directory
  | notText
  deriving DecidableEq

/-- Why there are no settings. -/
inductive ConfigFault where
  | unreadable (fault : FileFault)
  /-- A TOML text is malformed, or fits no settings for the reason given. -/
  | toml (mismatch : Option Mismatch)
  | json (fault : Json.Fault)
  | invalid (complaints : List Complaint)
  deriving DecidableEq

/-- The complaint in words. -/
def Complaint.message : Complaint → String
  | zeroColumns => "max_columns must be at least 1"
  | zeroRows => "max_rows must be at least 1"
  | notANumber v raw => s!"{v}: not a number: {Text.quote raw}"
  | notAnOrientation v raw => s!"{v}: unknown orientation {Text.quote raw}"

/-- The fault in words. -/
def FileFault.message : FileFault → String
  | missing => "I/O error: No such file or directory (os error 2)"
  | directory => "I/O error: Is a directory (os error 21)"
  | notText => "I/O error: stream did not contain valid UTF-8"

/-- All complaints in words. -/
def Complaint.messages (cs : List Complaint) : String :=
  "validation errors: " ++ String.intercalate "; " (cs.map Complaint.message)

/-- In messages about TOML texts fractional numbers are positional and keep a fraction. -/
def ConfigFault.fractionStyle : Decimal.Style where
  tie := .up
  positional _ := true
  wholeFraction := true
  plusSign := ""
  infinity := "inf"
  notANumber := "NaN"
  signedInfinity := true

/-- The fault in words, unless a text is malformed. -/
def ConfigFault.message? : ConfigFault → Option String
  | unreadable f => some f.message
  | toml m => m.map (·.message fractionStyle.write)
  | json f => f.message?
  | invalid cs => some (Complaint.messages cs)

namespace Config

/-- Two columns and two rows in a horizontal workspace. -/
def standard : Config :=
  ⟨⟨2, 2⟩, .horizontal⟩

/-- One complaint for each limit that is zero. -/
def complaints (c : Config) : List Complaint :=
  (if c.limits.columns = 0 then [.zeroColumns] else []) ++
    if c.limits.rows = 0 then [.zeroRows] else []

/-- The settings, if there is no complaint. -/
def validated (c : Config) : Except ConfigFault Config :=
  if c.complaints = [] then .ok c else .error (.invalid c.complaints)

/-- One panel that fills the workspace. -/
def initial {α : Type} [Coordinate α] (c : Config) (id : PanelId) : Layout α :=
  .single id c.orientation

/-- The candidates for the next layout within the limits. -/
def candidates {α : Type} [Coordinate α] (c : Config) (s : Layout α) :
    Except Refusal (List (Layout α)) :=
  s.candidates c.limits

theorem complaints_eq_nil_iff {c : Config} : c.complaints = [] ↔ c.limits.Roomy := by
  unfold complaints Limits.Roomy
  split <;> split <;> simp_all

end Config

end Mosaic
