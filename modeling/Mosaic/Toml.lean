/-!
# TOML values and tables

A document is a table, which is built line by line.  Its entries stay in the order in which their
keys first appear; a table that appears on the way to another one and gets its own heading later
moves to the place of that heading.

* `Toml.assign`: a key with a value, perhaps below keys that stand for tables.
* `Toml.openTable`: the entries under a heading.
* `Toml.appendTable`: the entries under a heading of one more element of an array of tables.

All of them fail where the same thing would be defined twice.
-/

namespace Mosaic.Toml

/-- How a table came about, which decides what may still be added to it. -/
inductive Origin where
  /-- It has a heading of its own. -/
  | heading
  /-- It stands on the way to a heading. -/
  | implied
  /-- It stands on the way to a key. -/
  | dotted
  /-- It is written as a value. -/
  | inline
  deriving DecidableEq

/-- A value under a key. -/
inductive Value where
  | text (s : String)
  | integer (i : Int)
  | fraction (x : Float)
  | boolean (b : Bool)
  /-- A date, a time of day, or both. -/
  | moment
  | array (items : List Value)
  | table (origin : Origin) (entries : List (String × Value))
  /-- An array of tables, each of which has a heading. -/
  | tables (elements : List (List (String × Value)))

/-- The entries of a table, in order. -/
abbrev Entries := List (String × Value)

/-- Sets the value of a key that is present. -/
def Entries.set (es : Entries) (key : String) (v : Value) : Entries :=
  es.map fun e => if e.1 = key then (key, v) else e

/-- Drops a key. -/
def Entries.drop (es : Entries) (key : String) : Entries :=
  es.filter (·.1 ≠ key)

/-- Applies a function to the last of several tables. -/
def inLast (f : Entries → Option Entries) : List Entries → Option (List Entries)
  | [] => none
  | [es] => do return [← f es]
  | es :: rest => do return es :: (← inLast f rest)

/-- Defines a key below a path of tables.  Only tables that themselves stand on the way to a key may
be extended so; those on the way to a heading may be passed. -/
def assign : List String → String → Value → Entries → Option Entries
  | [], key, v, es =>
    match es.lookup key with
    | none => some (es ++ [(key, v)])
    | some _ => none
  | k :: path, key, v, es =>
    match es.lookup k with
    | none => do return es ++ [(k, .table .dotted (← assign path key v []))]
    | some (.table origin inner) =>
      if origin = .dotted ∨ (origin = .implied ∧ path ≠ []) then do
        return es.set k (.table origin (← assign path key v inner))
      else none
    | some (.tables elements) =>
      if path = [] then none
      else do return es.set k (.tables (← inLast (assign path key v) elements))
    | some _ => none

/-- A key below a path, and its value. -/
abbrev Assignment := List String × String × Value

/-- Defines several keys. -/
def assignAll (as : List Assignment) (es : Entries) : Option Entries :=
  as.foldlM (fun es a => assign a.1 a.2.1 a.2.2 es) es

/-- Applies a function to the table at the end of a path, which leads through the last element of an
array of tables. -/
def within (f : Entries → Option Entries) : List String → Entries → Option Entries
  | [], es => f es
  | k :: path, es =>
    match es.lookup k with
    | none => do return es ++ [(k, .table .implied (← within f path []))]
    | some (.table origin inner) =>
      if origin = .inline then none
      else do return es.set k (.table origin (← within f path inner))
    | some (.tables elements) => do return es.set k (.tables (← inLast (within f path) elements))
    | some _ => none

/-- Gives a table its heading and its entries. -/
def openTable (key : String) (as : List Assignment) (es : Entries) : Option Entries :=
  match es.lookup key with
  | none => do return es ++ [(key, .table .heading (← assignAll as []))]
  | some (.table .implied inner) => do
    return es.drop key ++ [(key, .table .heading (← assignAll as inner))]
  | some _ => none

/-- Adds an element with its entries to an array of tables. -/
def appendTable (key : String) (as : List Assignment) (es : Entries) : Option Entries :=
  match es.lookup key with
  | none => do return es ++ [(key, .tables [← assignAll as []])]
  | some (.tables elements) => do
    return es.set key (.tables (elements ++ [← assignAll as []]))
  | some _ => none

/-! ### Documents -/

/-- A heading: whether it adds an element to an array of tables, the path, and the last key. -/
structure Heading where
  repeated : Bool
  path : List String
  key : String

/-- A line that is not blank. -/
inductive Line where
  | heading (h : Heading)
  | assignment (a : Assignment)

/-- The assignments before the first heading, and each heading with those after it. -/
def sections : List Line → List Assignment × List (Heading × List Assignment)
  | [] => ([], [])
  | .assignment a :: rest => ((a :: (sections rest).1), (sections rest).2)
  | .heading h :: rest => ([], (h, (sections rest).1) :: (sections rest).2)

/-- The table that the lines of a document define. -/
def ofLines (lines : List Line) : Option Entries := do
  let (before, rest) := sections lines
  let root ← assignAll before []
  rest.foldlM (fun es (h, as) =>
    within (if h.repeated then appendTable h.key as else openTable h.key as) h.path es) root

end Mosaic.Toml
