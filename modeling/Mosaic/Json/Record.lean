import Mosaic.Json.Skip

/-!
# Records in JSON

A record is written as an object whose members are its fields, in any order, or as an array of the
fields in their order.

* `Field`: how one field is read into what has been read before.
* `Schema`: the fields of a record, and how it is put together from them.
* `record`: the reader of a schema.
-/

namespace Mosaic.Json.Reader

variable {β σ : Type}

/-- The two ways to write a record. -/
inductive Form where
  | object
  | array
  deriving DecidableEq

/-- A field of a record that is put together in values of type `σ`. -/
structure Field (σ : Type) where
  name : String
  /-- Whether the field has been read. -/
  present : σ → Bool
  /-- Reads the field into the record. -/
  read : σ → Reader σ

/-- A field kept in an optional component of the record. -/
def Field.of {γ : Type} (name : String) (get : σ → Option γ) (set : σ → γ → σ)
    (reader : Reader γ) : Field σ where
  name := name
  present s := (get s).isSome
  read s := do return set s (← reader)

/-- How a record is read. -/
structure Schema (σ β : Type) where
  name : String
  fields : List (Field σ)
  /-- Whether members that are no fields are refused. -/
  closed : Bool
  /-- The record before any field is read. -/
  start : σ
  /-- The record when all there is has been read; the first argument makes an absent field, given by
  its place and name, into a fault. -/
  finish : (Nat → String → Mismatch) → Form → σ → Except Mismatch β

namespace Schema

variable (schema : Schema σ β)

/-- The names of the fields. -/
def names : List String :=
  schema.fields.map (·.name)

/-- What the absence of a field means. -/
def absent : Form → Nat → String → Mismatch
  | .object, _, name => .missingField name
  | .array, place, _ => .wrongLength place (.fields schema.name schema.fields.length)

/-- The record from its fields. -/
def finishAs (form : Form) (s : σ) : Reader β :=
  match schema.finish (schema.absent form) form s with
  | .ok b => return b
  | .error m => throw (.mismatch m)

/-- Reads the member of a name, after the name. -/
def member (name : String) (s : σ) : Reader σ := do
  match schema.fields.find? (·.name == name) with
  | some field =>
    if field.present s then throw (.mismatch (.repeatedField name))
    expect ':'
    field.read s
  | none =>
    if schema.closed then throw (.mismatch (.unknownField name schema.names))
    expect ':'
    skipValue
    return s

/-- Whether another member follows in an object; its first one needs no comma before it. -/
def anotherMember (first : Bool) : Reader Bool := do
  match ← peek with
  | '\x7d' => return false
  | '"' => if first then return true else throw .malformed
  | ',' =>
    if first then throw .malformed
    advance
    if (← peek) = '"' then return true else throw .malformed
  | _ => throw .malformed

/-- Reads members up to the closing brace, in at most the given number of steps. -/
def membersWithin : Nat → Bool → σ → Reader σ
  | 0, _, _ => throw .truncated
  | n + 1, first, s => do
    if ← anotherMember first then
      advance
      let name ← ofScanner Quoted.read
      let s ← schema.member name s
      membersWithin n false s
    else return s

/-- Reads fields in their order, as many as there are. -/
def inOrder : List (Field σ) → Bool → σ → Reader σ
  | [], _, s => return s
  | field :: rest, first, s => do
    if ← anotherItem first then
      let s ← field.read s
      inOrder rest false s
    else return s

end Schema

/-- A record, written as an object with members in any order or as an array of the fields. -/
def record (schema : Schema σ β) : Reader β := do
  match ← peek with
  | '[' =>
    advance
    let b ← schema.finishAs .array (← Schema.inOrder schema.fields true schema.start)
    expect ']'
    return b
  | '\x7b' =>
    advance
    let s ← schema.membersWithin ((← get).length + 1) true schema.start
    let b ← schema.finishAs .object s
    expect '\x7d'
    return b
  | _ => reject (.record schema.name)

/-- The value of a field that may not be absent. -/
def need (absent : Nat → String → Mismatch) (place : Nat) (name : String) :
    Option β → Except Mismatch β
  | some b => .ok b
  | none => .error (absent place name)

/-- The value of a field that may be absent from objects, though not from arrays. -/
def needInArray (absent : Nat → String → Mismatch) (form : Form) (place : Nat) (name : String) :
    Option (Option β) → Except Mismatch (Option β)
  | some b => .ok b
  | none => if form = .object then .ok none else .error (absent place name)

end Mosaic.Json.Reader
