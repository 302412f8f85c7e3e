import Mosaic.Config
import Mosaic.Layout.Json

/-!
# Settings in JSON

Settings are an object of three fields, each of which may be absent.  Other members are refused.
-/

namespace Mosaic.Config

open Json.Reader (Field Schema record)

/-- Settings are written with their limits and their orientation. -/
def toJson (c : Config) : Json :=
  .object [("max_columns", .natural c.limits.columns.toNat),
    ("max_rows", .natural c.limits.rows.toNat), ("orientation", c.orientation.toJson)]

/-- The settings that have been read, absent ones being the standard. -/
def ofParts (columns rows : Option UInt32) (orientation : Option Orientation) : Config :=
  ⟨⟨columns.getD standard.limits.columns, rows.getD standard.limits.rows⟩,
    orientation.getD standard.orientation⟩

/-- How settings are read. -/
def schema : Schema (Option UInt32 × Option UInt32 × Option Orientation) Config where
  name := "GridConfig"
  fields := [
    .of "max_columns" (·.1) (fun s v => (v, s.2)) Json.Reader.word32,
    .of "max_rows" (·.2.1) (fun s v => (s.1, v, s.2.2)) Json.Reader.word32,
    .of "orientation" (·.2.2) (fun s v => (s.1, s.2.1, v)) Orientation.reader]
  closed := true
  start := (none, none, none)
  finish _ _ s := return ofParts s.1 s.2.1 s.2.2

/-- The settings that a JSON text holds. -/
def ofJson (text : String) : Except ConfigFault Config :=
  match (record schema).run text with
  | .ok c => c.validated
  | .error fault => .error (.json fault)

end Mosaic.Config
