import Mosaic.Proofs.Library
import Mosaic.Proofs.ReadBack
import Mosaic.Proofs.Validation

/-!
# Round trips of layouts

A layout is written as its orientation and its panels in label order, and read from panels in any
order.  Reading what was written gives the layout again, provided that its numbers are read back.
Panels in any order make up a layout exactly if no label occurs twice, and then always the same one.
This holds of every library that keeps what it documents; the printer and the readers of this
project are such a library.

* `Json.Reader.takes_sequence`, `takes_record`: arrays and objects are read from the readings of
  their parts.
* `Json.Library.own`, `Json.Library.lossless_own`: the printer and the readers of this project, and
  what they keep.
* `Layout.read_own`, `Layout.write_own`: with them layouts are read and written as the project does.
* `Layout.json_normalForm`: writing and reading are inverse to each other, up to the order.
-/

namespace Mosaic

/-! ### Arrays and objects in a text -/

namespace Json

variable {β σ : Type}

/-- The characters of a member. -/
def charsOfMember (m : String × Json) : List Char :=
  quote m.1 ++ ':' :: m.2.chars

theorem charsOfItems_cons (v : Json) (vs : List Json) :
    charsOfItems (v :: vs) = v.chars ++ vs.flatMap fun w => ',' :: w.chars := by
  induction vs generalizing v with
  | nil => simp [charsOfItems]
  | cons w vs ih => simp [charsOfItems, ih w]

theorem charsOfMembers_cons (m : String × Json) (ms : List (String × Json)) :
    charsOfMembers (m :: ms) = charsOfMember m ++ ms.flatMap fun n => ',' :: charsOfMember n := by
  induction ms generalizing m with
  | nil => simp [charsOfMembers, charsOfMember]
  | cons n ms ih => simp [charsOfMembers, charsOfMember, ih n]

namespace Reader

variable {item : Reader β} {f : β → Json} {cs rest tail : List Char}

theorem get_bind (g : List Char → Reader β) : (get >>= g) cs = g cs cs := rfl

/-- A text that begins with a value and not with the end of an array. -/
def Begins (cs : List Char) : Prop :=
  ∃ c more, cs = c :: more ∧ ¬ isBlank c ∧ c ≠ ']'

theorem anotherItem_true_of_begins (h : Begins cs) : anotherItem true cs = .ok (true, cs) := by
  obtain ⟨c, more, rfl, hblank, hc⟩ := h
  unfold anotherItem
  rw [bind_of_ok (peek_of_dropWhile (List.dropWhile_cons_of_neg hblank))]
  split
  · exact absurd rfl hc
  · rfl
  · rfl

theorem anotherItem_false_of_comma (h : cs.dropWhile isBlank = ',' :: rest) (hrest : Begins rest) :
    anotherItem false cs = .ok (true, rest) := by
  obtain ⟨c, more, rfl, hblank, hc⟩ := hrest
  have hpeek := peek_of_dropWhile (List.dropWhile_cons_of_neg (l := more) hblank)
  unfold anotherItem
  rw [bind_of_ok (peek_of_dropWhile h)]
  simp only [Bool.false_eq_true, if_false]
  rw [bind_of_ok (advance_cons _ _), bind_of_ok hpeek, if_neg hc]
  rfl

theorem anotherItem_of_bracket (first : Bool) (h : cs.dropWhile isBlank = ']' :: rest) :
    anotherItem first cs = .ok (false, ']' :: rest) := by
  unfold anotherItem
  rw [bind_of_ok (peek_of_dropWhile h)]
  rfl

theorem Begins.append (h : Begins cs) (tail : List Char) : Begins (cs ++ tail) := by
  obtain ⟨c, more, rfl, hc⟩ := h
  exact ⟨c, more ++ tail, rfl, hc⟩

theorem ends_flatMap {γ : Type} (xs : List γ) (g : γ → List Char) {c : Char}
    (hc : c = ',' ∨ c = ']' ∨ c = '\x7d') (tail : List Char) :
    Ends ((xs.flatMap fun x => ',' :: g x) ++ c :: tail) := by
  cases xs with
  | nil => exact ends_cons hc
  | cons _ _ => exact ends_cons (Or.inl rfl)

theorem length_le_length_flatMap {γ : Type} (xs : List γ) (g : γ → List Char) :
    xs.length ≤ (xs.flatMap fun x => ',' :: g x).length := by
  induction xs with
  | nil => exact le_rfl
  | cons x xs ih =>
    simp only [List.flatMap_cons, List.length_append, List.length_cons]
    omega

/-- One item and then the others. -/
theorem itemsWithin_succ {first : Bool} {n : Nat} {b : β} {bs : List β} {more : List Char}
    (hanother : anotherItem first cs = .ok (true, (f b).chars ++ more))
    (htakes : Takes item (f b).chars b) (hends : Ends more)
    (hmore : ∀ rest, rest.dropWhile isBlank = more →
      itemsWithin item n false rest = .ok (bs, tail)) :
    itemsWithin item (n + 1) first cs = .ok (b :: bs, tail) := by
  obtain ⟨rest, hread, hrest⟩ := htakes more hends
  rw [itemsWithin, bind_of_ok hanother]
  simp only [if_true]
  rw [bind_of_ok hread, bind_of_ok (hmore rest hrest)]
  rfl

theorem itemsWithin_of_takes (bs : List β)
    (hitem : ∀ b ∈ bs, Begins (f b).chars ∧ Takes item (f b).chars b) {n : Nat} (hn : bs.length < n)
    (h : cs.dropWhile isBlank = (bs.flatMap fun b => ',' :: (f b).chars) ++ ']' :: tail) :
    itemsWithin item n false cs = .ok (bs, ']' :: tail) := by
  induction bs generalizing n cs with
  | nil =>
    cases n with
    | zero => cases hn
    | succ n =>
      rw [itemsWithin, bind_of_ok (anotherItem_of_bracket false h)]
      rfl
  | cons b bs ih =>
    obtain ⟨⟨hbegins, htakes⟩, hitems⟩ := List.forall_mem_cons.1 hitem
    cases n with
    | zero => cases hn
    | succ n =>
      rw [List.flatMap_cons, List.cons_append, List.cons_append, List.append_assoc] at h
      exact itemsWithin_succ (anotherItem_false_of_comma h (hbegins.append _)) htakes
        (ends_flatMap bs _ (Or.inr (Or.inl rfl)) tail)
        fun rest hrest => ih hitems (Nat.lt_of_succ_lt_succ hn) hrest

/-- **An array is read back if its items are.** -/
theorem takes_sequence (bs : List β)
    (hitem : ∀ b ∈ bs, Begins (f b).chars ∧ Takes item (f b).chars b) :
    Takes (sequence item) (array (bs.map f)).chars bs := by
  refine .of_eq fun tail ht => ?_
  have hitems : itemsWithin item ((charsOfItems (bs.map f) ++ ']' :: tail).length + 1) true
      (charsOfItems (bs.map f) ++ ']' :: tail) = .ok (bs, ']' :: tail) := by
    cases bs with
    | nil =>
      rw [itemsWithin, bind_of_ok (anotherItem_of_bracket true rfl)]
      rfl
    | cons b bs =>
      obtain ⟨⟨hbegins, htakes⟩, hitems⟩ := List.forall_mem_cons.1 hitem
      rw [List.map_cons, charsOfItems_cons, List.flatMap_map, List.append_assoc]
      refine itemsWithin_succ (anotherItem_true_of_begins (hbegins.append _)) htakes
        (ends_flatMap bs _ (Or.inr (Or.inl rfl)) tail) fun rest hrest => ?_
      refine itemsWithin_of_takes bs hitems ?_ hrest
      have hlen := length_le_length_flatMap bs fun b => (f b).chars
      simp only [List.length_append, List.length_cons]
      omega
  have hchars : (array (bs.map f)).chars ++ tail =
      '[' :: (charsOfItems (bs.map f) ++ ']' :: tail) := by
    simp [chars]
  unfold sequence
  rw [hchars, bind_of_ok (peek_of_dropWhile rfl), if_pos rfl, bind_of_ok (advance_cons _ _),
    get_bind, bind_of_ok hitems,
    bind_of_ok (expect_of_dropWhile rfl)]
  rfl

/-! ### Objects -/

namespace Schema

variable (schema : Schema σ β) {s t u : σ}

/-- Members that fill the fields of a record one after the other. -/
inductive Fills : σ → List (String × Json) → σ → Prop
  | nil {s : σ} : Fills s [] s
  | cons {s t u : σ} {field : Field σ} {name : String} {v : Json} {ms : List (String × Json)}
      (hfield : schema.fields.find? (·.name == name) = some field)
      (habsent : field.present s = false) (htakes : Takes (field.read s) v.chars t)
      (hrest : Fills t ms u) : Fills s ((name, v) :: ms) u

variable {schema}

theorem member_of_find? {field : Field σ} {name : String} {v : Json}
    (hfield : schema.fields.find? (·.name == name) = some field)
    (habsent : field.present s = false) (htakes : Takes (field.read s) v.chars t)
    (ht : Ends tail) :
    ∃ rest, schema.member name s (':' :: (v.chars ++ tail)) = .ok (t, rest) ∧
      rest.dropWhile isBlank = tail := by
  obtain ⟨rest, hread, hrest⟩ := htakes tail ht
  refine ⟨rest, ?_, hrest⟩
  unfold member
  rw [hfield]
  simp only [habsent, Bool.false_eq_true, if_false]
  exact (bind_of_ok (expect_of_dropWhile rfl)).trans hread

theorem charsOfMember_append (name : String) (v : Json) (more : List Char) :
    charsOfMember (name, v) ++ more =
      '"' :: (name.toList.flatMap escape ++ '"' :: ':' :: (v.chars ++ more)) := by
  simp [charsOfMember, quote]

theorem anotherMember_false_of_comma (h : cs.dropWhile isBlank = ',' :: '"' :: rest) :
    anotherMember false cs = .ok (true, '"' :: rest) := by
  unfold anotherMember
  rw [bind_of_ok (peek_of_dropWhile h)]
  rfl

theorem anotherMember_of_brace (first : Bool) (h : cs.dropWhile isBlank = '\x7d' :: rest) :
    anotherMember first cs = .ok (false, '\x7d' :: rest) := by
  unfold anotherMember
  rw [bind_of_ok (peek_of_dropWhile h)]
  rfl

/-- One member and then the others. -/
theorem membersWithin_succ {first : Bool} {n : Nat} {field : Field σ} {name : String} {v : Json}
    {more : List Char} (hfield : schema.fields.find? (·.name == name) = some field)
    (habsent : field.present s = false) (htakes : Takes (field.read s) v.chars t)
    (hanother : anotherMember first cs = .ok (true, charsOfMember (name, v) ++ more))
    (hends : Ends more)
    (hmore : ∀ rest, rest.dropWhile isBlank = more →
      schema.membersWithin n false t rest = .ok (u, tail)) :
    schema.membersWithin (n + 1) first s cs = .ok (u, tail) := by
  obtain ⟨rest, hmember, hrest⟩ := member_of_find? hfield habsent htakes hends
  have hname : ofScanner Quoted.read (name.toList.flatMap escape ++ '"' :: ':' ::
      (v.chars ++ more)) = .ok (name, ':' :: (v.chars ++ more)) := Quoted.read_escape name
  rw [charsOfMember_append] at hanother
  rw [membersWithin, bind_of_ok hanother]
  simp only [if_true]
  rw [bind_of_ok (advance_cons _ _), bind_of_ok hname, bind_of_ok hmember]
  exact hmore rest hrest

theorem Fills.membersWithin {ms : List (String × Json)} (h : schema.Fills s ms t) {n : Nat}
    (hn : ms.length < n)
    (hcs : cs.dropWhile isBlank = (ms.flatMap fun m => ',' :: charsOfMember m) ++ '\x7d' :: tail) :
    schema.membersWithin n false s cs = .ok (t, '\x7d' :: tail) := by
  induction h generalizing n cs with
  | nil =>
    cases n with
    | zero => cases hn
    | succ n =>
      rw [Schema.membersWithin, bind_of_ok (anotherMember_of_brace false hcs)]
      rfl
  | cons hfield habsent htakes _ ih =>
    cases n with
    | zero => cases hn
    | succ n =>
      rw [List.flatMap_cons, List.cons_append, List.cons_append, List.append_assoc] at hcs
      refine membersWithin_succ hfield habsent htakes ?_
        (ends_flatMap _ _ (Or.inr (Or.inr rfl)) tail)
        fun rest hrest => ih (Nat.lt_of_succ_lt_succ hn) hrest
      rw [charsOfMember_append] at hcs ⊢
      exact anotherMember_false_of_comma hcs

end Schema

/-- **A record is read back from its members.** -/
theorem takes_record {schema : Schema σ β} {ms : List (String × Json)} {s : σ} {b : β}
    (h : schema.Fills schema.start ms s)
    (hfinish : schema.finish (schema.absent .object) .object s = .ok b) :
    Takes (record schema) (object ms).chars b := by
  refine .of_eq fun tail ht => ?_
  have hmembers : schema.membersWithin ((charsOfMembers ms ++ '\x7d' :: tail).length + 1) true
      schema.start (charsOfMembers ms ++ '\x7d' :: tail) = .ok (s, '\x7d' :: tail) := by
    cases h with
    | nil =>
      rw [Schema.membersWithin, bind_of_ok (Schema.anotherMember_of_brace true rfl)]
      rfl
    | @cons _ _ _ _ _ _ ms hfield habsent htakes hrest =>
      rw [charsOfMembers_cons, List.append_assoc]
      refine Schema.membersWithin_succ hfield habsent htakes ?_
        (ends_flatMap ms charsOfMember (Or.inr (Or.inr rfl)) tail) fun rest hcs => ?_
      · rw [Schema.charsOfMember_append]
        rfl
      · refine hrest.membersWithin ?_ hcs
        have hlen := length_le_length_flatMap ms charsOfMember
        simp only [List.length_append, List.length_cons]
        omega
  have hchars : (object ms).chars ++ tail = '\x7b' :: (charsOfMembers ms ++ '\x7d' :: tail) := by
    simp [chars]
  have hfinishAs : schema.finishAs .object s ('\x7d' :: tail) = .ok (b, '\x7d' :: tail) := by
    unfold Schema.finishAs
    rw [hfinish]
    rfl
  unfold record
  rw [hchars, bind_of_ok (peek_of_dropWhile rfl)]
  simp only
  rw [bind_of_ok (advance_cons _ _), get_bind, bind_of_ok hmembers,
    bind_of_ok hfinishAs, bind_of_ok (expect_of_dropWhile rfl)]
  rfl

theorem takes_field {γ : Type} {name : String} {get : σ → Option γ} {set : σ → γ → σ}
    {reader : Reader γ} {c : γ} (h : Takes reader cs c) (s : σ) :
    Takes ((Field.of name get set reader).read s) cs (set s c) :=
  h.map (set s)

theorem begins_object (ms : List (String × Json)) : Begins (object ms).chars := by
  refine ⟨'\x7b', charsOfMembers ms ++ ['\x7d'], by simp [chars], by decide, by decide⟩

end Reader

/-! ### The printer and the readers -/

/-- What a conversion has made of entries, or its refusal. -/
def Reader.ofConversion : Except Refusal β → Reader β
  | .ok b => return b
  | .error reason => throw (.mismatch (.refused reason))

/-- How the values of a type are written and read in this project. -/
structure Codec (β : Type) where
  toJson : β → Json
  reader : Reader β

end Json

/-- How an orientation and panels in any order are written. -/
def Json.Entries.toJson (e : Json.Entries) : Json :=
  .object [("orientation", e.orientation.toJson), ("panels", .array (e.panels.map Panel.toJson))]

/-- Reads an orientation and panels in any order. -/
def Json.Entries.reader : Json.Reader Json.Entries := do
  let e ← Json.Reader.record Layout.schema
  return ⟨e.1, e.2⟩

namespace Json

/-- The printer and the readers of this project. -/
def Library.own : Library where
  Text := String
  Fault := Json.Fault
  Codec := Json.Codec
  write c b := (c.toJson b).render
  read c := c.reader.run
  Keeps c b := Reader.Takes c.reader (c.toJson b).chars b
  double := ⟨number, Reader.double⟩
  rect := ⟨Rect.toJson, Reader.record Rect.schema⟩
  label := ⟨PanelId.toJson, PanelId.reader⟩
  panel := ⟨Panel.toJson, Reader.record Panel.schema⟩
  panels := ⟨fun ps => array (ps.map Panel.toJson), Reader.sequence (Reader.record Panel.schema)⟩
  orientation := ⟨Orientation.toJson, Orientation.reader⟩
  entries := ⟨Entries.toJson, Entries.reader⟩
  converted into make :=
    ⟨fun b => (into b).toJson, do Reader.ofConversion (make (← Entries.reader))⟩
  refused reason := .mismatch (.refused reason)

theorem Library.readsBack_own {x : Float} :
    own.ReadsBack x ↔ Reader.double.run (number x).render = .ok x := by
  simp only [ReadsBack, own]

end Json

theorem Layout.reader_eq :
    Layout.reader = (do Json.Reader.ofConversion (ofEntries (← Json.Entries.reader))) := by
  unfold Layout.reader Json.Entries.reader
  rw [bind_assoc]
  refine bind_congr fun ⟨o, ps⟩ => ?_
  rw [pure_bind]
  unfold ofEntries
  cases h : ofPanels o ps <;> simp only [h] <;> rfl

theorem Layout.read_own (t : String) : read Json.Library.own t = Layout.reader.run t := by
  rw [reader_eq]
  rfl

theorem Layout.write_own (s : Layout Float) : s.write Json.Library.own = s.toJson.render := rfl

open Json Json.Reader Json.Library

/-! ### What is kept -/

theorem Orientation.takes_reader (o : Orientation) :
    Takes Orientation.reader o.toJson.chars o :=
  takes_variant (by cases o <;> decide)

theorem PanelId.takes_reader (id : PanelId) : Takes PanelId.reader id.toJson.chars id :=
  (takes_word64 id.number).map PanelId.mk

theorem Rect.takes_schema {r : Rect Float}
    (h : ∀ x ∈ r.numbers, Takes double (number x).chars x) :
    Takes (record Rect.schema) r.toJson.chars r := by
  simp only [numbers, List.forall_mem_cons] at h
  obtain ⟨hx, hy, hwidth, hheight, -⟩ := h
  refine takes_record (s := ⟨r.x, r.y, r.width, r.height⟩) ?_ rfl
  refine .cons rfl rfl (takes_field hx _) ?_
  refine .cons rfl rfl (takes_field hy _) ?_
  refine .cons rfl rfl (takes_field hwidth _) ?_
  exact .cons rfl rfl (takes_field hheight _) .nil

theorem Panel.takes_schema {p : Panel Float} (hid : Takes PanelId.reader p.id.toJson.chars p.id)
    (hrect : Takes (record Rect.schema) p.rect.toJson.chars p.rect) :
    Takes (record Panel.schema) p.toJson.chars p := by
  refine takes_record (s := (some p.id, some p.rect)) ?_ rfl
  refine .cons rfl rfl (takes_field hid _) ?_
  exact .cons rfl rfl (takes_field hrect _) .nil

theorem Json.Entries.takes_reader {e : Entries}
    (ho : Takes Orientation.reader e.orientation.toJson.chars e.orientation)
    (hps : Takes (sequence (record Panel.schema)) (array (e.panels.map Panel.toJson)).chars
      e.panels) : Takes Entries.reader e.toJson.chars e := by
  have hrecord : Takes (record Layout.schema) e.toJson.chars (e.orientation, e.panels) := by
    refine takes_record (s := (some e.orientation, some e.panels)) ?_ rfl
    refine .cons rfl rfl (takes_field ho _) ?_
    exact .cons rfl rfl (takes_field hps _) .nil
  exact hrecord.map fun x => Entries.mk x.1 x.2

/-- **The printer and the readers of this project are a library that keeps what it documents.** -/
theorem Json.Library.lossless_own : own.Lossless where
  double {x} h := by
    have hchars : (number x).render.toList = (number x).chars := String.toList_ofList
    have htakes := takes_double_of_run (readsBack_own.1 h)
    rw [hchars] at htakes
    exact htakes
  label := PanelId.takes_reader
  orientation := Orientation.takes_reader
  rect := Rect.takes_schema
  panel := Panel.takes_schema
  panels {ps} h := takes_sequence ps fun p hp => ⟨begins_object _, h p hp⟩
  entries := Entries.takes_reader
  read_write {β c b} h := by
    have hchars : (c.toJson b).render.toList = (c.toJson b).chars := String.toList_ofList
    exact Takes.run (hchars ▸ h)
  write_converted _ _ _ := rfl
  read_converted into make t e h := by
    obtain ⟨rest, hread, hrest⟩ := exists_of_run h
    cases hmade : make e with
    | ok b => exact run_of_ok ((bind_of_ok hread).trans (by rw [hmade]; rfl)) hrest
    | error reason => exact run_of_error ((bind_of_ok hread).trans (by rw [hmade]; rfl))

namespace Layout

/-- **The text of a layout is a lossless normal form.**  In the texts of every library that keeps
what it documents, a layout is read back as soon as its numbers are: all layouts of finite numbers
are, if all finite doubles are.  Panels in any order make up a layout exactly if no label occurs
twice; then the layout is the same in every order and is written with the same panels in ascending
order of their labels, so that reading and writing it again changes nothing.  Otherwise the label
that is refused is the first one that occurs again.  Written lists of panels are read in the same
way. -/
theorem json_normalForm (lib : Library) (hlib : lib.Lossless) :
    (∀ s : Layout Float, lib.ReadsBackAll s.panels → read lib (s.write lib) = .ok s) ∧
      ∀ (o : Orientation) (ps : List (Panel Float)),
        ((∃ s, ofEntries ⟨o, ps⟩ = .ok s) ↔ (ps.map (·.id)).Nodup) ∧
        (∀ s, ofEntries ⟨o, ps⟩ = .ok s →
          (∀ qs : List (Panel Float), qs.Perm ps → ofEntries ⟨o, qs⟩ = .ok s) ∧
            ∃ qs, s.entries = ⟨o, qs⟩ ∧ qs.Perm ps ∧ qs.Pairwise (·.id < ·.id) ∧
              ofEntries ⟨o, qs⟩ = .ok s) ∧
        (∀ e, ofEntries ⟨o, ps⟩ = .error e ↔
          ∃ before p after, ps = before ++ p :: after ∧ (before.map (·.id)).Nodup ∧
            p.id ∈ before.map (·.id) ∧ e = .duplicatePanel p.id) ∧
        (lib.ReadsBackAll ps →
          read lib (lib.write lib.entries ⟨o, ps⟩) =
            (ofEntries ⟨o, ps⟩).mapError lib.refused) := by
  refine ⟨fun s => read_write hlib, fun o ps => ⟨exists_ofPanels_iff, fun s h => ?_,
    fun e => ofPanels_eq_error_iff, read_writeEntries hlib ⟨o, ps⟩⟩⟩
  obtain ⟨rfl, hperm⟩ := perm_of_ofPanels h
  exact ⟨fun qs hqs => ofPanels_of_perm h hqs, s.panels, rfl, hperm, s.ascending,
    ofEntries_entries s⟩

/-- Two columns in the texts of this project, and the same panels listed from right to left. -/
theorem json_normalForm_twoColumns :
    own.Lossless ∧ own.ReadsBackAll twoColumns.panels ∧
      read own (twoColumns.write own) = .ok twoColumns ∧
      read own (own.write own.entries ⟨.horizontal, twoColumns.panels.reverse⟩) =
        .ok twoColumns := by
  have hzero : own.ReadsBack 0 := readsBack_own.2 (by decide +kernel)
  have hhalf : own.ReadsBack 0.5 := readsBack_own.2 (by decide +kernel)
  have hone : own.ReadsBack 1 := readsBack_own.2 (by decide +kernel)
  have hnumbers : own.ReadsBackAll twoColumns.panels := by
    intro p hp
    rcases List.mem_cons.1 hp with rfl | hp
    · simp only [Rect.numbers, List.forall_mem_cons]
      exact ⟨hzero, hzero, hhalf, hone, nofun⟩
    · obtain rfl := List.mem_singleton.1 hp
      simp only [Rect.numbers, List.forall_mem_cons]
      exact ⟨hhalf, hzero, hhalf, hone, nofun⟩
  obtain ⟨hread, hentries⟩ := json_normalForm own lossless_own
  obtain ⟨-, -, -, hreversed⟩ := hentries .horizontal twoColumns.panels.reverse
  have hlayout : ofEntries ⟨.horizontal, twoColumns.panels.reverse⟩ = .ok twoColumns := by
    decide +kernel
  refine ⟨lossless_own, hnumbers, hread twoColumns hnumbers, ?_⟩
  rw [hreversed fun p hp => hnumbers p (List.mem_reverse.1 hp), hlayout]
  rfl

end Layout

end Mosaic
