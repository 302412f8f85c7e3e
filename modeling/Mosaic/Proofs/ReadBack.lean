import Mosaic.Layout.Json
import Mosaic.Proofs.Digits
import Mathlib.Data.List.TakeWhile
import Mathlib.Tactic.IntervalCases

/-!
# Reading back what is written

A value is written into the middle of a text, so a reader has to find its end: a number is over when
a comma or a closing bracket follows, and a text when its quote does.  Whether the number that is
found is the one that was written is left to the numbers themselves; labels, names and texts are
always found again.

* `Json.Reader.Takes`: a reader takes a value from a text, whatever follows.
* `Json.Reader.takes_double_of_run`: a double that is read from a text of its own is read from the
  middle of another one.
* `Json.Reader.takes_word64`, `takes_variant`: labels and names.
* `Json.Quoted.read_escape`: every text is read back from between its quotes.
-/

namespace Mosaic

namespace Json

variable {β γ : Type}

/-- What may follow a value: nothing, a comma or a closing bracket. -/
def Ends (tail : List Char) : Prop :=
  ∀ c ∈ tail.head?, c = ',' ∨ c = ']' ∨ c = '\x7d'

theorem ends_nil : Ends [] := nofun

theorem ends_cons {c : Char} {tail : List Char} (h : c = ',' ∨ c = ']' ∨ c = '\x7d') :
    Ends (c :: tail) := by
  rintro d ⟨⟩
  exact h

theorem Ends.dropWhile {tail : List Char} (ht : Ends tail) :
    tail.dropWhile Reader.isBlank = tail := by
  cases tail with
  | nil => rfl
  | cons c tail => rcases ht c rfl with rfl | rfl | rfl <;> rfl

theorem bind_eq_ok {x : Except Fault β} {f : β → Except Fault γ} {c : γ} :
    x >>= f = .ok c ↔ ∃ b, x = .ok b ∧ f b = .ok c := by
  cases x <;> simp [bind, Except.bind]

/-! ### The end of a number -/

/-- A scanner that has found the end of its value finds it there in a longer text, too. -/
def Stable (scan : List Char → Except Fault (β × List Char)) : Prop :=
  ∀ cs b rest tail, scan cs = .ok (b, rest) → Ends tail → scan (cs ++ tail) = .ok (b, rest ++ tail)

namespace Stable

theorem ok (b : β) : Stable fun cs => .ok (b, cs) := by
  rintro cs _ _ tail ⟨⟩ -
  rfl

theorem error (fault : Fault) : Stable fun _ => (.error fault : Except Fault (β × List Char)) :=
  nofun

theorem bind {scan : List Char → Except Fault (β × List Char)}
    {more : β → List Char → Except Fault (γ × List Char)} (hscan : Stable scan)
    (hmore : ∀ b, Stable (more b)) : Stable fun cs => (scan cs >>= fun x => more x.1 x.2) := by
  intro cs c rest tail h ht
  obtain ⟨⟨b, mid⟩, hb, hc⟩ := bind_eq_ok.1 h
  exact bind_eq_ok.2 ⟨_, hscan cs b mid tail hb ht, hmore b mid c rest tail hc ht⟩

end Stable

namespace Numeral

theorem digits_append {tail : List Char} (cs : List Char) (ht : Ends tail) :
    digits (cs ++ tail) = digits cs ∧ afterDigits (cs ++ tail) = afterDigits cs ++ tail := by
  have htail : tail.takeWhile Text.isDigit = [] ∧ tail.dropWhile Text.isDigit = tail := by
    cases tail with
    | nil => exact ⟨rfl, rfl⟩
    | cons c tail => rcases ht c rfl with rfl | rfl | rfl <;> exact ⟨rfl, rfl⟩
  unfold digits afterDigits
  rw [List.takeWhile_append, List.dropWhile_append, htail.1, htail.2, List.append_nil]
  constructor
  · split
    · next h => rw [(List.takeWhile_prefix _).eq_of_length h]
    · rfl
  · split
    · next h => rw [List.isEmpty_iff.1 h, List.nil_append]
    · rfl

theorem stable_someDigits : Stable someDigits := by
  rintro (- | ⟨c, cs⟩) ds rest tail h ht
  · cases h
  · obtain ⟨hdigits, hafter⟩ := digits_append (c :: cs) ht
    by_cases hc : Text.isDigit c
    · simp only [someDigits, List.cons_append, hc, if_true] at h hdigits hafter ⊢
      cases h
      rw [hdigits, hafter]
    · simp [someDigits, hc] at h

theorem stable_wholeDigits : Stable wholeDigits := by
  have hzero (ds : List Nat) : Stable fun rest =>
      if ds.head? = some 0 ∧ ds.length ≠ 1 then .error .malformed else .ok (ds, rest) := by
    split
    · exact Stable.error _
    · exact Stable.ok ds
  exact stable_someDigits.bind hzero

theorem fractionDigits_of_ends {tail : List Char} (ht : Ends tail) :
    fractionDigits tail = .ok (none, tail) := by
  cases tail with
  | nil => rfl
  | cons c tail => rcases ht c rfl with rfl | rfl | rfl <;> rfl

theorem exponentDigits_of_ends {tail : List Char} (ht : Ends tail) :
    exponentDigits tail = .ok (none, tail) := by
  cases tail with
  | nil => rfl
  | cons c tail => rcases ht c rfl with rfl | rfl | rfl <;> rfl

theorem fractionDigits_cons {c : Char} (h : c ≠ '.') (cs : List Char) :
    fractionDigits (c :: cs) = .ok (none, c :: cs) := by
  unfold fractionDigits
  split
  · next heq => exact absurd (List.cons.inj heq).1 h
  · rfl

theorem stable_fractionDigits : Stable fractionDigits := by
  rintro (- | ⟨c, cs⟩) ds rest tail h ht
  · cases h
    exact fractionDigits_of_ends ht
  · by_cases hc : c = '.'
    · subst hc
      exact (stable_someDigits.bind fun ds => Stable.ok (some ds)) cs ds rest tail h ht
    · rw [fractionDigits_cons hc] at h
      cases h
      exact fractionDigits_cons hc _

/-- The sign of an exponent and what follows it. -/
theorem exponentDigits_cons {c : Char} (h : c = 'e' ∨ c = 'E') (d : Char) (cs : List Char) :
    exponentDigits (c :: d :: cs) =
      (someDigits (if d = '-' ∨ d = '+' then cs else d :: cs) >>= fun x =>
        .ok (some (decide (d = '-'), x.1), x.2)) := by
  unfold exponentDigits
  simp only [if_pos h]
  split
  · next heq =>
    obtain ⟨rfl, rfl⟩ := List.cons.inj heq
    rfl
  · next heq =>
    obtain ⟨rfl, rfl⟩ := List.cons.inj heq
    rfl
  · next hminus hplus =>
    have hd : d ≠ '-' ∧ d ≠ '+' :=
      ⟨fun hd => hminus cs (by rw [hd]), fun hd => hplus cs (by rw [hd])⟩
    simp [hd]

theorem stable_exponentDigits : Stable exponentDigits := by
  have hsigned (negative : Bool) := stable_someDigits.bind fun ds => Stable.ok (some (negative, ds))
  rintro (- | ⟨c, cs⟩) e rest tail h ht
  · cases h
    exact exponentDigits_of_ends ht
  · by_cases hc : c = 'e' ∨ c = 'E'
    · cases cs with
      | nil => simp [exponentDigits, hc, someDigits, bind, Except.bind] at h
      | cons d cs =>
        rw [exponentDigits_cons hc] at h
        rw [List.cons_append, List.cons_append, exponentDigits_cons hc]
        split at h
        · next hd =>
          rw [if_pos hd]
          exact hsigned _ cs e rest tail h ht
        · next hd =>
          rw [if_neg hd]
          exact hsigned _ (d :: cs) e rest tail h ht
    · simp only [exponentDigits, List.cons_append, if_neg hc] at h ⊢
      cases h
      rfl

theorem stable_unsigned (negative : Bool) : Stable (unsigned negative) :=
  stable_wholeDigits.bind fun _ => stable_fractionDigits.bind fun _ =>
    stable_exponentDigits.bind fun _ => Stable.ok _

theorem scan_cons {c : Char} (h : c ≠ '-') (cs : List Char) :
    scan (c :: cs) = unsigned false (c :: cs) := by
  unfold scan
  split
  · next heq => exact absurd (List.cons.inj heq).1 h
  · rfl

theorem stable_scan : Stable scan := by
  rintro (- | ⟨c, cs⟩) n rest tail h ht
  · cases h
  · by_cases hc : c = '-'
    · subst hc
      exact stable_unsigned true cs n rest tail h ht
    · rw [scan_cons hc] at h
      rw [List.cons_append, scan_cons hc]
      exact stable_unsigned false (c :: cs) n rest tail h ht

end Numeral

theorem Number.stable_scan : Stable Number.scan := by
  intro cs v rest tail h ht
  obtain ⟨⟨n, mid⟩, hscan, hvalue⟩ := bind_eq_ok.1 h
  refine bind_eq_ok.2 ⟨_, Numeral.stable_scan cs n mid tail hscan ht, ?_⟩
  simp only at hvalue ⊢
  split at hvalue
  · cases hvalue
  · cases hvalue
    rfl

/-! ### Natural numbers -/

theorem Numeral.wholeDigits_toDigits (n : Nat) :
    wholeDigits (Nat.toDigits 10 n) = .ok ((Nat.toDigits 10 n).filterMap Text.digit?, []) := by
  have hdigit : ∀ c ∈ Nat.toDigits 10 n, Text.isDigit c := fun _ => Text.isDigit_of_mem_toDigits
  have hsome : someDigits (Nat.toDigits 10 n) =
      .ok ((Nat.toDigits 10 n).filterMap Text.digit?, []) := by
    cases hcs : Nat.toDigits 10 n with
    | nil => exact absurd hcs Nat.toDigits_ne_nil
    | cons c cs =>
      rw [hcs] at hdigit
      unfold someDigits digits afterDigits
      rw [List.takeWhile_eq_self_iff.2 hdigit, List.dropWhile_eq_nil_iff.2 hdigit]
      simp [hdigit c]
  refine bind_eq_ok.2 ⟨_, hsome, if_neg ?_⟩
  rintro ⟨hzero, hlong⟩
  rcases Nat.eq_zero_or_pos n with rfl | hpos
  · exact hlong rfl
  · exact Text.head?_toDigits hpos hzero

theorem Number.scan_toDigits {n : Nat} (h : n < UInt64.size) :
    Number.scan (Nat.toDigits 10 n) = .ok (.integer n, []) := by
  have hdigits : Numeral.scan (Nat.toDigits 10 n) =
      .ok (⟨false, (Nat.toDigits 10 n).filterMap Text.digit?, none, none⟩, []) := by
    cases hcs : Nat.toDigits 10 n with
    | nil => exact absurd hcs Nat.toDigits_ne_nil
    | cons c cs =>
      have hc : c ≠ '-' := by
        rintro rfl
        exact absurd (Text.isDigit_of_mem_toDigits (hcs ▸ List.mem_cons_self)) (by decide)
      rw [Numeral.scan_cons hc, ← hcs]
      unfold Numeral.unsigned
      rw [Numeral.wholeDigits_toDigits]
      rfl
  refine bind_eq_ok.2 ⟨_, hdigits, ?_⟩
  simp [Numeral.value, Text.ofDigits_toDigits n, h]

/-! ### Texts between quotes -/

namespace Quoted

variable {tail : List Char}

/-- The digits of an escape by number. -/
theorem hex?_hex {n : Nat} (h : n < 32) :
    ∃ a b, (if n < 16 then ['0'] else []) ++ Text.hex n = [a, b] ∧ hex? '0' '0' a b = some n := by
  interval_cases n <;> exact ⟨_, _, rfl, rfl⟩

/-- The three forms of a character between quotes: a letter after a backslash, a number after one,
and the character itself. -/
theorem escape_cases (c : Char) :
    (∃ d, escape c = ['\\', d] ∧ ∀ tail, escaped (d :: tail) = .ok (c, tail)) ∨
      (c.toNat < 32 ∧ escape c =
        ['\\', 'u', '0', '0'] ++ (if c.toNat < 16 then ['0'] else []) ++ Text.hex c.toNat) ∨
      escape c = [c] ∧ c ≠ '"' ∧ c ≠ '\\' ∧ ¬ c < ' ' := by
  by_cases hletter : c ∈ ['"', '\\', '\x08', '\t', '\n', '\x0c', '\r']
  · left
    simp only [List.mem_cons, List.not_mem_nil, or_false] at hletter
    rcases hletter with rfl | rfl | rfl | rfl | rfl | rfl | rfl <;> exact ⟨_, rfl, fun _ => rfl⟩
  · right
    simp only [List.mem_cons, List.not_mem_nil, or_false, not_or] at hletter
    by_cases hcontrol : c < ' '
    · exact Or.inl ⟨hcontrol, by simp only [escape, hletter, if_false, if_pos hcontrol]⟩
    · exact Or.inr ⟨by simp only [escape, hletter, if_false, if_neg hcontrol], hletter.1,
        hletter.2.1, hcontrol⟩

theorem escaped_number {c a b : Char} (hc : c.toNat < 32)
    (h : hex? '0' '0' a b = some c.toNat) :
    escaped ('u' :: '0' :: '0' :: a :: b :: tail) = .ok (c, tail) := by
  have hunit : codeUnit ('0' :: '0' :: a :: b :: tail) = .ok (c.toNat, tail) := by
    simp only [codeUnit, h]
  unfold escaped
  refine bind_eq_ok.2 ⟨_, hunit, ?_⟩
  simp only
  rw [if_neg (by omega), if_neg (by omega), Char.ofNat_toNat]

theorem readWithin_backslash (n : Nat) {cs : List Char} {c : Char}
    (h : escaped cs = .ok (c, tail)) :
    readWithin (n + 1) ('\\' :: cs) = (readWithin n tail >>= fun x => .ok (c :: x.1, x.2)) := by
  rw [readWithin, if_neg (by decide), if_pos rfl, h]
  rfl

/-- **A character is read back from its escape.** -/
theorem readWithin_escape (n : Nat) (c : Char) :
    readWithin (n + 1) (escape c ++ tail) =
      (readWithin n tail >>= fun x => .ok (c :: x.1, x.2)) := by
  rcases escape_cases c with ⟨d, hc, hd⟩ | ⟨hlt, hc⟩ | ⟨hc, hquote, hbackslash, hcontrol⟩
  · rw [hc]
    exact readWithin_backslash n (hd tail)
  · obtain ⟨a, b, hdigits, hvalue⟩ := hex?_hex hlt
    rw [hc, List.append_assoc ['\\', 'u', '0', '0'], hdigits]
    exact readWithin_backslash n (escaped_number hlt hvalue)
  · rw [hc, List.singleton_append, readWithin, if_neg hquote, if_neg hbackslash, if_neg hcontrol]

theorem readWithin_flatMap_escape (cs : List Char) {n : Nat} (hn : cs.length < n) :
    readWithin n (cs.flatMap escape ++ '"' :: tail) = .ok (cs, tail) := by
  induction cs generalizing n with
  | nil =>
    cases n with
    | zero => cases hn
    | succ n => rfl
  | cons c cs ih =>
    cases n with
    | zero => cases hn
    | succ n =>
      rw [List.flatMap_cons, List.append_assoc, readWithin_escape,
        ih (Nat.lt_of_succ_lt_succ hn)]
      rfl

theorem length_le_length_flatMap_escape (cs : List Char) :
    cs.length ≤ (cs.flatMap escape).length := by
  induction cs with
  | nil => exact le_rfl
  | cons c cs ih =>
    have hpos : 0 < (escape c).length := by
      unfold escape
      repeat' split
      all_goals simp
    rw [List.flatMap_cons, List.length_append, List.length_cons]
    omega

/-- **Every text is read back from between its quotes.** -/
theorem read_escape (s : String) :
    read (s.toList.flatMap escape ++ '"' :: tail) = .ok (s, tail) := by
  have hlen := length_le_length_flatMap_escape s.toList
  refine bind_eq_ok.2 ⟨_, readWithin_flatMap_escape s.toList ?_, ?_⟩
  · rw [List.length_append, List.length_cons]
    omega
  · simp

end Quoted

/-! ### Readers -/

namespace Reader

variable {r : Reader β} {cs rest tail : List Char} {b : β}

theorem bind_of_ok {f : β → Reader γ} (h : r cs = .ok (b, rest)) : (r >>= f) cs = f b rest := by
  change StateT.bind r f cs = _
  unfold StateT.bind
  rw [h]
  rfl

theorem bind_of_error {f : β → Reader γ} {fault : Fault} (h : r cs = .error fault) :
    (r >>= f) cs = .error fault := by
  change StateT.bind r f cs = _
  unfold StateT.bind
  rw [h]
  rfl

theorem exists_of_bind {f : β → Reader γ} {c : γ} (h : (r >>= f) cs = .ok (c, rest)) :
    ∃ b mid, r cs = .ok (b, mid) ∧ f b mid = .ok (c, rest) := by
  obtain ⟨⟨b, mid⟩, hb, hc⟩ := bind_eq_ok.1 h
  exact ⟨b, mid, hb, hc⟩

theorem peek_of_dropWhile {c : Char} (h : cs.dropWhile isBlank = c :: rest) :
    peek cs = .ok (c, c :: rest) := by
  have hpeek : peek? cs = .ok (some c, c :: rest) := by
    change Except.ok ((cs.dropWhile isBlank).head?, cs.dropWhile isBlank) = _
    rw [h]
    rfl
  exact bind_of_ok hpeek

theorem advance_cons (c : Char) (cs : List Char) : advance (c :: cs) = .ok ((), cs) := rfl

theorem expect_of_dropWhile {c : Char} (h : cs.dropWhile isBlank = c :: rest) :
    expect c cs = .ok ((), rest) := by
  unfold expect
  rw [bind_of_ok (peek_of_dropWhile h), if_pos rfl]
  rfl

theorem exists_of_peek {c : Char} (h : peek cs = .ok (c, rest)) :
    ∃ mid, cs.dropWhile isBlank = c :: mid ∧ rest = c :: mid := by
  obtain ⟨first?, mid, hpeek, h⟩ := exists_of_bind h
  cases hpeek
  cases hcs : cs.dropWhile isBlank with
  | nil =>
    rw [hcs] at h
    cases h
  | cons d mid =>
    rw [hcs] at h
    cases h
    exact ⟨mid, rfl, rfl⟩

/-- Whatever is found is refused. -/
theorem reject_ne_ok (needed : Needed) : (reject needed : Reader β) cs ≠ .ok (b, rest) := by
  intro h
  obtain ⟨found, mid, -, h⟩ := exists_of_bind h
  cases h

/-! ### Numbers in a text -/

theorem number_of_dropWhile (needed : Needed) {c : Char} (h : cs.dropWhile isBlank = c :: rest)
    (hc : c = '-' ∨ Text.isDigit c) : number needed cs = Number.scan (c :: rest) := by
  unfold number
  rw [bind_of_ok (peek_of_dropWhile h), if_pos hc]
  rfl

theorem stable_number (needed : Needed) : Stable (number needed) := by
  intro cs v rest tail h ht
  obtain ⟨c, mid, hpeek, hscan⟩ := exists_of_bind h
  obtain ⟨more, hcs, rfl⟩ := exists_of_peek hpeek
  split at hscan
  · next hc =>
    have hlong : (cs ++ tail).dropWhile isBlank = c :: (more ++ tail) := by
      rw [List.dropWhile_append, hcs]
      rfl
    rw [number_of_dropWhile needed hlong hc]
    exact Number.stable_scan _ v rest tail hscan ht
  · exact absurd hscan (reject_ne_ok needed)

theorem stable_bind {f : β → Reader γ} (hr : Stable r) (hf : ∀ b, Stable (f b)) :
    Stable (r >>= f) :=
  hr.bind hf

theorem stable_double : Stable double := by
  refine stable_bind (stable_number .double) fun v => ?_
  cases v with
  | integer i => exact Stable.ok _
  | fraction x => exact Stable.ok x

theorem stable_word64 : Stable word64 := by
  have hwhole : Stable (wholeBelow UInt64.size .word64) := by
    refine stable_bind (stable_number .word64) fun v => ?_
    cases v with
    | fraction x => exact Stable.error _
    | integer i =>
      simp only
      split
      · exact Stable.ok _
      · exact Stable.error _
  exact stable_bind hwhole fun n => Stable.ok _

/-! ### Values in a text -/

/-- The reader takes the value from the text, whatever follows. -/
def Takes (r : Reader β) (cs : List Char) (b : β) : Prop :=
  ∀ tail, Ends tail → ∃ rest, r (cs ++ tail) = .ok (b, rest) ∧ rest.dropWhile isBlank = tail

theorem Takes.of_eq (h : ∀ tail, Ends tail → r (cs ++ tail) = .ok (b, tail)) : Takes r cs b :=
  fun tail ht => ⟨tail, h tail ht, ht.dropWhile⟩

theorem Takes.of_stable (hr : Stable r) (h : r cs = .ok (b, rest))
    (hrest : rest.dropWhile isBlank = []) : Takes r cs b := by
  refine fun tail ht => ⟨_, hr cs b rest tail h ht, ?_⟩
  rw [List.dropWhile_append, hrest, ht.dropWhile]
  rfl

theorem Takes.map (h : Takes r cs b) (f : β → γ) : Takes (do return f (← r)) cs (f b) := by
  intro tail ht
  obtain ⟨rest, hr, hrest⟩ := h tail ht
  exact ⟨rest, bind_of_ok hr, hrest⟩

theorem run_of_ok {s : String} (h : r s.toList = .ok (b, rest))
    (hrest : rest.dropWhile isBlank = []) : r.run s = .ok b := by
  have hall : (do let b ← r; return (b, ← peek?) : Reader (β × Option Char)) s.toList =
      .ok ((b, none), []) := by
    rw [bind_of_ok h]
    change Except.ok ((b, (rest.dropWhile isBlank).head?), rest.dropWhile isBlank) = _
    rw [hrest]
    rfl
  unfold Reader.run
  rw [hall]

theorem Takes.run {s : String} (h : Takes r s.toList b) : r.run s = .ok b := by
  obtain ⟨rest, hr, hrest⟩ := h [] ends_nil
  rw [List.append_nil] at hr
  exact run_of_ok hr hrest

theorem run_of_error {s : String} {fault : Fault} (h : r s.toList = .error fault) :
    r.run s = .error fault := by
  unfold Reader.run
  rw [bind_of_error h]

theorem exists_of_run {s : String} (h : r.run s = .ok b) :
    ∃ rest, r s.toList = .ok (b, rest) ∧ rest.dropWhile isBlank = [] := by
  unfold Reader.run at h
  split at h
  · next hall =>
    cases h
    obtain ⟨b', mid, hr, hpeek⟩ := exists_of_bind hall
    obtain ⟨first?, mid', hfirst, hpeek⟩ := exists_of_bind hpeek
    cases hfirst
    obtain ⟨rfl, hnone⟩ := Prod.mk.inj (Prod.mk.inj (Except.ok.inj hpeek)).1
    exact ⟨mid, hr, List.head?_eq_none_iff.1 hnone⟩
  · cases h
  · cases h

/-- A value that makes up a text is read from the middle of another one, too. -/
theorem Takes.of_run {s : String} (hr : Stable r) (h : r.run s = .ok b) : Takes r s.toList b := by
  obtain ⟨rest, hs, hrest⟩ := exists_of_run h
  exact .of_stable hr hs hrest

theorem takes_double_of_run {s : String} {x : Float} (h : double.run s = .ok x) :
    Takes double s.toList x :=
  .of_run stable_double h

theorem isBlank_of_isDigit {c : Char} (h : Text.isDigit c) : ¬ isBlank c := by
  intro hblank
  simp only [isBlank, decide_eq_true_eq] at hblank
  rcases hblank with rfl | rfl | rfl | rfl <;> cases h

theorem number_toDigits (needed : Needed) {n : Nat} (h : n < UInt64.size) :
    number needed (Nat.toDigits 10 n) = .ok (.integer n, []) := by
  cases hcs : Nat.toDigits 10 n with
  | nil => exact absurd hcs Nat.toDigits_ne_nil
  | cons c cs =>
    have hc : Text.isDigit c := Text.isDigit_of_mem_toDigits (hcs ▸ List.mem_cons_self)
    rw [number_of_dropWhile needed (List.dropWhile_cons_of_neg (isBlank_of_isDigit hc))
      (Or.inr hc), ← hcs]
    exact Number.scan_toDigits h

/-- **Labels are read back.** -/
theorem takes_word64 (n : UInt64) : Takes word64 (natural n.toNat).chars n := by
  have hwhole : wholeBelow UInt64.size .word64 (natural n.toNat).chars = .ok (n.toNat, []) := by
    unfold wholeBelow chars
    rw [Nat.toList_repr, bind_of_ok (number_toDigits .word64 n.toNat_lt_size)]
    simp only
    rw [if_pos ⟨Int.natCast_nonneg _, Int.ofNat_lt.2 n.toNat_lt_size⟩, Int.toNat_natCast]
    rfl
  have hword : word64 (natural n.toNat).chars = .ok (n, []) := by
    unfold word64
    rw [bind_of_ok hwhole, UInt64.ofNat_toNat]
    rfl
  exact .of_stable stable_word64 hword rfl

/-- **Names are read back.** -/
theorem takes_variant {values : List β} {name : β → String}
    (h : values.find? (name · == name b) = some b) :
    Takes (variant values name) (Json.text (name b)).chars b := by
  refine .of_eq fun tail ht => ?_
  have hquote : (Json.text (name b)).chars ++ tail =
      '"' :: ((name b).toList.flatMap escape ++ '"' :: tail) := by
    simp [chars, quote]
  have hread : ofScanner Quoted.read ((name b).toList.flatMap escape ++ '"' :: tail) =
      .ok (name b, tail) := Quoted.read_escape (name b)
  unfold variant
  rw [hquote, bind_of_ok (peek_of_dropWhile rfl)]
  change (advance >>= fun _ => ofScanner Quoted.read >>= ofName values name) _ = _
  rw [bind_of_ok (advance_cons _ _), bind_of_ok hread]
  unfold ofName
  rw [h]
  rfl

end Reader

end Json

end Mosaic
