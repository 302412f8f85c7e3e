import Mosaic.Config.Json
import Mosaic.Toml.Document

/-!
# Settings in TOML

Settings are the three entries of a document, each of which may be absent.  The first entry that is
not a setting, or does not fit it, is what is wrong.
-/

namespace Mosaic.Config

/-- What a value is, as far as a message tells. -/
def kindOfToml : Toml.Value → Found
  | .text s => .text s
  | .integer i => .integer i
  | .fraction x => .fraction x
  | .boolean b => .boolean b
  | .array _ | .tables _ => .sequence
  | .table _ _ | .moment => .map

/-- The limit that a value stands for. -/
def limitOfToml : Toml.Value → Except Mismatch UInt32
  | .integer i =>
    if 0 ≤ i ∧ i < UInt32.size then .ok (.ofNat i.toNat) else .error (.outOfRange i .word32)
  | v => .error (.wrongType (kindOfToml v) .word32)

/-- The orientation of a name. -/
def orientationOfName (s : String) : Except Mismatch Orientation :=
  match Orientation.ofName? s with
  | some o => .ok o
  | none => .error (.unknownVariant s (Orientation.all.map Orientation.name))

/-- Whether nothing comes with the name of an orientation that is written as a key. -/
def isBareVariant : Toml.Value → Bool
  | .array items => items.isEmpty
  | .table _ es => es.isEmpty
  | .tables elements => elements.isEmpty
  | _ => false

/-- The orientation that a value stands for: its name, or a table with the name as its only key and
nothing under it. -/
def orientationOfToml : Toml.Value → Except (Option Mismatch) Orientation
  | .text s => (orientationOfName s).mapError some
  | .table _ [(s, v)] => do
    let o ← (orientationOfName s).mapError some
    if isBareVariant v then .ok o else .error none
  | _ => .error none

/-- Takes one entry into the settings. -/
def takeEntry (c : Config) (entry : String × Toml.Value) : Except (Option Mismatch) Config :=
  match entry with
  | ("max_columns", v) => do
    return { c with limits.columns := ← (limitOfToml v).mapError some }
  | ("max_rows", v) => do
    return { c with limits.rows := ← (limitOfToml v).mapError some }
  | ("orientation", v) => do
    return { c with orientation := ← orientationOfToml v }
  | (name, _) => .error (some (.unknownField name schema.names))

/-- The settings that a TOML text holds. -/
def ofToml (text : String) : Except ConfigFault Config :=
  match Toml.read text with
  | none => .error (.toml none)
  | some entries =>
    match entries.foldlM takeEntry standard with
    | .error m => .error (.toml m)
    | .ok c => c.validated

end Mosaic.Config
