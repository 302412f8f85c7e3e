import Mosaic.Proofs.Entries

/-!
# Layouts in texts

A layout is written as the entries that it consists of, and is made up of the entries that are found
in a text.  How values become texts is the matter of a library, which stands here for any one that
keeps what it documents of its codecs: a record loses nothing if its fields lose nothing, a list if
its items do not, and a converted value is written and read as what it is converted into.  Of a
double nothing is taken for granted, since what is not finite has no numeral and a library may round
the numerals that it reads.

* `Json.Library`, `Json.Library.Lossless`: a library and its documentation.
* `Json.Library.Lossless.keeps_entries`: entries lose nothing if their doubles do not.
* `Layout.write`, `Layout.read`: layouts in the texts of a library.
* `Layout.read_writeEntries`: a written list of panels is read as the layout that it makes up.
-/

namespace Mosaic

/-- The four numbers of a rectangle. -/
def Rect.numbers (r : Rect Float) : List Float :=
  [r.x, r.y, r.width, r.height]

namespace Json

/-- What a layout consists of: its orientation and its panels. -/
structure Entries where
  orientation : Orientation
  panels : List (Panel Float)

/-- A library that writes values as texts and reads them, by a codec for each type.  It keeps a
value if it finds it again wherever it has written it.  A codec can be converted: then values are
written as entries, and are made of entries by a function that may refuse them. -/
structure Library where
  Text : Type
  Fault : Type
  Codec : Type → Type
  write {β : Type} : Codec β → β → Text
  read {β : Type} : Codec β → Text → Except Fault β
  Keeps {β : Type} : Codec β → β → Prop
  double : Codec Float
  rect : Codec (Rect Float)
  label : Codec PanelId
  panel : Codec (Panel Float)
  panels : Codec (List (Panel Float))
  orientation : Codec Orientation
  entries : Codec Entries
  converted {β : Type} : (β → Entries) → (Entries → Except Refusal β) → Codec β
  refused : Refusal → Fault

namespace Library

variable (lib : Library)

/-- The library reads back the double that it has written. -/
def ReadsBack (x : Float) : Prop :=
  lib.read lib.double (lib.write lib.double x) = .ok x

/-- All numbers of the panels are read back. -/
def ReadsBackAll (ps : List (Panel Float)) : Prop :=
  ∀ p ∈ ps, ∀ x ∈ p.rect.numbers, lib.ReadsBack x

/-- What a library documents of its codecs. -/
structure Lossless : Prop where
  /-- A double that is read back from a text of its own is found in a longer one, too. -/
  double {x : Float} (h : lib.ReadsBack x) : lib.Keeps lib.double x
  /-- Labels are written as whole numbers. -/
  label (id : PanelId) : lib.Keeps lib.label id
  /-- Orientations are written as names. -/
  orientation (o : Orientation) : lib.Keeps lib.orientation o
  /-- A record is found again if its fields are, here and below. -/
  rect {r : Rect Float} (h : ∀ x ∈ r.numbers, lib.Keeps lib.double x) : lib.Keeps lib.rect r
  panel {p : Panel Float} (hid : lib.Keeps lib.label p.id) (hrect : lib.Keeps lib.rect p.rect) :
    lib.Keeps lib.panel p
  /-- A list is found again if its items are. -/
  panels {ps : List (Panel Float)} (h : ∀ p ∈ ps, lib.Keeps lib.panel p) :
    lib.Keeps lib.panels ps
  entries {e : Entries} (ho : lib.Keeps lib.orientation e.orientation)
    (hps : lib.Keeps lib.panels e.panels) : lib.Keeps lib.entries e
  /-- What is found again wherever it is written is read from a text of its own. -/
  read_write {β : Type} {c : lib.Codec β} {b : β} (h : lib.Keeps c b) :
    lib.read c (lib.write c b) = .ok b
  /-- A converted value is written as the entries that it is converted into. -/
  write_converted {β : Type} (into : β → Entries) (make : Entries → Except Refusal β) (b : β) :
    lib.write (lib.converted into make) b = lib.write lib.entries (into b)
  /-- A converted value is read by reading entries and converting them, and a refusal is a fault. -/
  read_converted {β : Type} (into : β → Entries) (make : Entries → Except Refusal β)
    {t : lib.Text} {e : Entries} (h : lib.read lib.entries t = .ok e) :
    lib.read (lib.converted into make) t = (make e).mapError lib.refused

variable {lib}

/-- **Entries lose nothing if their doubles do not.** -/
theorem Lossless.keeps_entries (hlib : lib.Lossless) (e : Entries) (h : lib.ReadsBackAll e.panels) :
    lib.Keeps lib.entries e := by
  refine hlib.entries (hlib.orientation _) (hlib.panels fun p hp => ?_)
  exact hlib.panel (hlib.label _) (hlib.rect fun x hx => hlib.double (h p hp x hx))

end Library

end Json

open Json

namespace Layout

variable {lib : Library}

/-- What the layout consists of. -/
def entries (s : Layout Float) : Entries :=
  ⟨s.orientation, s.panels⟩

/-- The layout that entries make up. -/
def ofEntries (e : Entries) : Except Refusal (Layout Float) :=
  ofPanels e.orientation e.panels

/-- How a library writes and reads layouts. -/
def codec (lib : Library) : lib.Codec (Layout Float) :=
  lib.converted entries ofEntries

/-- The text of a layout. -/
def write (lib : Library) (s : Layout Float) : lib.Text :=
  lib.write (codec lib) s

/-- Reads a layout from a text. -/
def read (lib : Library) (t : lib.Text) : Except lib.Fault (Layout Float) :=
  lib.read (codec lib) t

theorem ofEntries_entries (s : Layout Float) : ofEntries s.entries = .ok s :=
  ofPanels_panels s

/-- **What is read from written entries is the layout that they make up.** -/
theorem read_writeEntries (hlib : lib.Lossless) (e : Entries) (h : lib.ReadsBackAll e.panels) :
    read lib (lib.write lib.entries e) = (ofEntries e).mapError lib.refused :=
  hlib.read_converted _ _ (hlib.read_write (hlib.keeps_entries e h))

theorem read_write (hlib : lib.Lossless) {s : Layout Float} (h : lib.ReadsBackAll s.panels) :
    read lib (s.write lib) = .ok s := by
  have htext : s.write lib = lib.write lib.entries s.entries := hlib.write_converted _ _ s
  rw [htext, read_writeEntries hlib s.entries h, ofEntries_entries]
  rfl

end Layout

end Mosaic
