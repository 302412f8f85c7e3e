import Mosaic.Config.Overrides
import Mosaic.Proofs.Digits
import Mathlib.Data.List.TakeWhile

/-!
# Settings and variables

What the value of a variable stands for is said without the functions that read it: a limit is a run
of digits, perhaps with a plus sign, and an orientation is its name in either case, both with blanks
around them.  The settings that variables lead to are then described by what each variable is set
to.

* `Config.limitOfText?_eq_some_iff`, `orientationOfText?_eq_some_iff`: the values that are read.
* `Config.malformed`: the complaints about variables that are set to anything else.
* `Config.override_eq`: all malformed values are complained of together; without any, the settings
  follow the variables, and they are refused if a limit is zero.
* `Config.exists_override`: variables lead from any settings to any others that are not refused.
* `Config.override_endToEnd`: all of this together.
-/

namespace Mosaic

/-! ### Blanks at both ends -/

namespace Text

theorem dropWhile_of_not_isBlank {cs : List Char} (h : ∀ c ∈ cs, ¬ isBlank c) :
    cs.dropWhile isBlank = cs := by
  cases cs with
  | nil => rfl
  | cons c cs => exact List.dropWhile_cons_of_neg (h c List.mem_cons_self)

/-- Without a blank inside, what stands between the blanks is what is left. -/
theorem trim_append {before core after : List Char} (hbefore : ∀ c ∈ before, isBlank c)
    (hcore : ∀ c ∈ core, ¬ isBlank c) (hafter : ∀ c ∈ after, isBlank c) :
    trim (before ++ core ++ after) = core := by
  have hfront : (before ++ core ++ after).dropWhile isBlank = core ++ after ∨
      core = [] ∧ (before ++ core ++ after).dropWhile isBlank = [] := by
    rw [List.append_assoc, List.dropWhile_append_of_pos hbefore]
    cases core with
    | nil => exact Or.inr ⟨rfl, List.dropWhile_eq_nil_iff.2 hafter⟩
    | cons c core =>
      exact Or.inl (List.dropWhile_cons_of_neg (hcore c List.mem_cons_self))
  unfold trim
  rcases hfront with hfront | ⟨rfl, hfront⟩
  · rw [hfront, List.reverse_append, List.dropWhile_append_of_pos, dropWhile_of_not_isBlank,
      List.reverse_reverse]
    · simpa using hcore
    · simpa using hafter
  · rw [hfront]
    rfl

/-- Nothing but blanks is removed. -/
theorem exists_trim (cs : List Char) :
    ∃ before after, cs = before ++ trim cs ++ after ∧ ∀ c ∈ before ++ after, isBlank c := by
  have hfront := List.takeWhile_append_dropWhile (p := isBlank) (l := cs)
  have hback := List.takeWhile_append_dropWhile (p := isBlank)
    (l := (cs.dropWhile isBlank).reverse)
  refine ⟨cs.takeWhile isBlank, ((cs.dropWhile isBlank).reverse.takeWhile isBlank).reverse,
    ?_, ?_⟩
  · unfold trim
    rw [List.append_assoc, ← List.reverse_append, hback, List.reverse_reverse, hfront]
  · intro c hc
    rcases List.mem_append.1 hc with hc | hc
    · exact List.mem_takeWhile_imp hc
    · exact List.mem_takeWhile_imp (List.mem_reverse.1 hc)

/-- No blank is a digit, a letter or a sign in ASCII. -/
theorem le_or_le_of_isBlank {c : Char} (h : isBlank c) : c.toNat ≤ 32 ∨ 133 ≤ c.toNat := by
  unfold isBlank Ranges.contains at h
  obtain ⟨r, hr, h⟩ := List.any_eq_true.1 h
  have hrange := of_decide_eq_true h
  have hends : ∀ r ∈ blank, r.2 ≤ 32 ∨ 133 ≤ r.1 := by decide
  rcases hends r hr with hlow | hhigh
  · exact Or.inl (hrange.2.trans hlow)
  · exact Or.inr (hhigh.trans hrange.1)

theorem not_isBlank_of_isDigit {c : Char} (h : c.isDigit) : ¬ isBlank c := by
  intro hblank
  simp only [Char.isDigit, Bool.and_eq_true, decide_eq_true_eq] at h
  have hrange : 48 ≤ c.toNat ∧ c.toNat ≤ 57 := h
  rcases le_or_le_of_isBlank hblank with hlow | hhigh <;> omega

/-- Blanks have no case. -/
theorem toLower_of_isBlank {c : Char} (h : isBlank c) : c.toLower = c := by
  unfold Char.toLower
  refine dif_neg ?_
  rintro ⟨hlow, hhigh⟩
  have hrange : 65 ≤ c.toNat ∧ c.toNat ≤ 90 := ⟨hlow, hhigh⟩
  rcases le_or_le_of_isBlank h with h | h <;> omega

end Text

namespace Config

variable {β : Type} {c d : Config} {lookup : String → Option String}

/-! ### What values stand for -/

/-- The text stands for the limit: a digit or more, perhaps with a plus sign, and blanks around
them. -/
def LimitText (raw : String) (limit : UInt32) : Prop :=
  ∃ before sign digits after, raw.toList = before ++ (sign ++ digits) ++ after ∧
    (∀ c ∈ before ++ after, Text.isBlank c) ∧ (sign = [] ∨ sign = ['+']) ∧
    digits ≠ [] ∧ (∀ c ∈ digits, c.isDigit) ∧ Nat.ofDigitChars 10 digits 0 = limit.toNat

/-- The text stands for the orientation: its name in either case, and blanks around it. -/
def OrientationText (raw : String) (o : Orientation) : Prop :=
  ∃ before word after, raw.toList = before ++ word ++ after ∧
    (∀ c ∈ before ++ after, Text.isBlank c) ∧ word.map Char.toLower = o.name.toList

theorem limitOfDigits?_eq_some_iff {cs : List Char} {n : UInt32} :
    limitOfDigits? cs = some n ↔
      cs ≠ [] ∧ (∀ c ∈ cs, c.isDigit) ∧ Nat.ofDigitChars 10 cs 0 = n.toNat := by
  have hvalue : ∀ m : Nat, (if m < UInt32.size then some (UInt32.ofNat m) else none) = some n ↔
      m = n.toNat := by
    intro m
    split
    · next hlt =>
      rw [Option.some.injEq, ← UInt32.toNat_inj, UInt32.toNat_ofNat_of_lt' hlt]
    · next hge =>
      refine iff_of_false nofun fun heq => hge (heq ▸ n.toNat_lt_size)
  unfold limitOfDigits?
  by_cases hdigits : ∀ c ∈ cs, c.isDigit
  · rw [Text.mapM_digit?_eq_some_iff.2 ⟨hdigits, rfl⟩]
    cases cs with
    | nil => simp
    | cons c cs =>
      simp only [List.map_cons]
      rw [← List.map_cons (f := Text.digitValue), Text.ofDigits_values, hvalue]
      simp only [ne_eq, reduceCtorEq, not_false_eq_true, true_and]
      exact (and_iff_right hdigits).symm
  · have hnone : cs.mapM Text.digit? = none :=
      Option.eq_none_iff_forall_ne_some.2 fun ds h =>
        hdigits (Text.mapM_digit?_eq_some_iff.1 h).1
    rw [hnone]
    exact iff_of_false nofun fun h => hdigits h.2.1

/-- **The limits that are read.** -/
theorem limitOfText?_eq_some_iff (raw : String) (n : UInt32) :
    limitOfText? raw = some n ↔ LimitText raw n := by
  constructor
  · intro h
    obtain ⟨before, after, hraw, hblank⟩ := Text.exists_trim raw.toList
    unfold limitOfText? at h
    split at h
    · next digits htrim =>
      rw [htrim] at hraw
      exact ⟨before, ['+'], digits, after, hraw, hblank, Or.inr rfl,
        limitOfDigits?_eq_some_iff.1 h⟩
    · exact ⟨before, [], _, after, hraw, hblank, Or.inl rfl, limitOfDigits?_eq_some_iff.1 h⟩
  · rintro ⟨before, sign, digits, after, hraw, hblank, hsign, hdigits⟩
    obtain ⟨hbefore, hafter⟩ := List.forall_mem_append.1 hblank
    have hcore : ∀ c ∈ sign ++ digits, ¬ Text.isBlank c := by
      refine List.forall_mem_append.2
        ⟨?_, fun c hc => Text.not_isBlank_of_isDigit (hdigits.2.1 c hc)⟩
      rcases hsign with rfl | rfl
      · exact nofun
      · exact List.forall_mem_singleton.2 (by decide)
    have htrim := Text.trim_append hbefore hcore hafter
    unfold limitOfText?
    rw [hraw, htrim]
    rcases hsign with rfl | rfl
    · split
      · next heq =>
        rw [List.nil_append] at heq
        exact absurd (hdigits.2.1 '+' (heq ▸ List.mem_cons_self)) (by decide)
      · exact limitOfDigits?_eq_some_iff.2 hdigits
    · exact limitOfDigits?_eq_some_iff.2 hdigits

/-- **The orientations that are read.** -/
theorem orientationOfText?_eq_some_iff (raw : String) (o : Orientation) :
    orientationOfText? raw = some o ↔ OrientationText raw o := by
  have hname : ∀ s, Orientation.ofName? s = some o ↔ s = o.name := by
    intro s
    constructor
    · intro h
      unfold Orientation.ofName? at h
      have heq := List.find?_some h
      exact (beq_iff_eq.1 heq).symm
    · rintro rfl
      exact Orientation.ofName?_name o
  have hread : orientationOfText? raw = some o ↔
      (Text.trim raw.toList).map Char.toLower = o.name.toList := by
    unfold orientationOfText?
    rw [hname, ← String.toList_inj, String.toList_ofList]
  rw [hread]
  constructor
  · intro h
    obtain ⟨before, after, hraw, hblank⟩ := Text.exists_trim raw.toList
    exact ⟨before, _, after, hraw, hblank, h⟩
  · rintro ⟨before, word, after, hraw, hblank, hword⟩
    obtain ⟨hbefore, hafter⟩ := List.forall_mem_append.1 hblank
    have hcore : ∀ c ∈ word, ¬ Text.isBlank c := by
      intro c hc hcblank
      have hletters : o.name.toList.all fun c => !Text.isBlank c := by cases o <;> decide
      have hletter : c ∈ o.name.toList := by
        rw [← hword, ← Text.toLower_of_isBlank hcblank]
        exact List.mem_map_of_mem hc
      have hnot := List.all_eq_true.1 hletters c hletter
      rw [hcblank] at hnot
      cases hnot
    rw [hraw, Text.trim_append hbefore hcore hafter, hword]

/-- The text stands for a limit. -/
def IsLimit (raw : String) : Prop :=
  ∃ n, LimitText raw n

/-- The text stands for an orientation. -/
def IsOrientation (raw : String) : Prop :=
  ∃ o, OrientationText raw o

theorem isSome_limitOfText?_iff (raw : String) : (limitOfText? raw).isSome ↔ IsLimit raw := by
  simp only [Option.isSome_iff_exists, limitOfText?_eq_some_iff, IsLimit]

theorem isSome_orientationOfText?_iff (raw : String) :
    (orientationOfText? raw).isSome ↔ IsOrientation raw := by
  simp only [Option.isSome_iff_exists, orientationOfText?_eq_some_iff, IsOrientation]

instance : DecidablePred IsLimit :=
  fun raw => decidable_of_iff _ (isSome_limitOfText?_iff raw)

instance : DecidablePred IsOrientation :=
  fun raw => decidable_of_iff _ (isSome_orientationOfText?_iff raw)

/-! ### What variables do -/

/-- The complaint about a variable that is set, and not to a text of the given form. -/
def objections (value : Option String) (Form : String → Prop) [DecidablePred Form]
    (complaint : String → Complaint) : List Complaint :=
  (value.toList.filter fun raw => ¬ Form raw).map complaint

/-- One complaint for each variable that is set to a malformed value. -/
def malformed (lookup : String → Option String) : List Complaint :=
  objections (lookup columnsVariable) IsLimit (.notANumber columnsVariable) ++
    objections (lookup rowsVariable) IsLimit (.notANumber rowsVariable) ++
    objections (lookup orientationVariable) IsOrientation (.notAnOrientation orientationVariable)

/-- The setting is what the variable stands for, or what it was if the variable is not set. -/
def Follows (value : Option String) (Stands : String → β → Prop) (current result : β) : Prop :=
  (value = none → result = current) ∧ ∀ raw, value = some raw → Stands raw result

/-- All settings follow their variables. -/
structure FollowsAll (lookup : String → Option String) (c d : Config) : Prop where
  columns : Follows (lookup columnsVariable) LimitText c.limits.columns d.limits.columns
  rows : Follows (lookup rowsVariable) LimitText c.limits.rows d.limits.rows
  orientation : Follows (lookup orientationVariable) OrientationText c.orientation d.orientation

section Variables

variable {read : String → Option β} {Stands : String → β → Prop} {Form : String → Prop}
  [DecidablePred Form] (hread : ∀ raw b, read raw = some b ↔ Stands raw b)
  (hform : ∀ raw, (read raw).isSome ↔ Form raw) (value : Option String)
  (complaint : String → Complaint) (current : β)
include hread hform

/-- **A variable changes its setting or is complained of.** -/
theorem overridden_eq :
    (overridden value read complaint current).2 = objections value Form complaint ∧
      (objections value Form complaint = [] → ∀ b,
        Follows value Stands current b ↔ b = (overridden value read complaint current).1) := by
  unfold overridden objections Follows
  cases value with
  | none => simp
  | some raw =>
    cases hraw : read raw with
    | none =>
      have hbad : ¬ Form raw := by
        rw [← hform, hraw]
        nofun
      simp [hbad, hraw]
    | some b =>
      have hgood : Form raw := (hform raw).1 (by rw [hraw]; rfl)
      refine ⟨by simp [hgood, hraw], fun _ b' => ?_⟩
      simp only [hraw, reduceCtorEq, false_implies, true_and, Option.some.injEq, forall_eq']
      rw [← hread, hraw, Option.some.injEq, eq_comm]

end Variables

/-- **Overriding settings.**  Malformed values are complained of together; without any, exactly one
configuration follows the variables, and it is checked as any other. -/
theorem override_eq (c : Config) (lookup : String → Option String) :
    (malformed lookup ≠ [] → c.override lookup = .error (.invalid (malformed lookup))) ∧
      (malformed lookup = [] → ∃ d, (∀ e, FollowsAll lookup c e ↔ e = d) ∧
        c.override lookup = d.validated) := by
  obtain ⟨hbad₁, hcolumns⟩ := overridden_eq limitOfText?_eq_some_iff isSome_limitOfText?_iff
    (lookup columnsVariable) (.notANumber columnsVariable) c.limits.columns
  obtain ⟨hbad₂, hrows⟩ := overridden_eq limitOfText?_eq_some_iff isSome_limitOfText?_iff
    (lookup rowsVariable) (.notANumber rowsVariable) c.limits.rows
  obtain ⟨hbad₃, horientation⟩ := overridden_eq orientationOfText?_eq_some_iff
    isSome_orientationOfText?_iff (lookup orientationVariable)
    (.notAnOrientation orientationVariable) c.orientation
  unfold override
  simp only [hbad₁, hbad₂, hbad₃]
  -- the three lists together are the malformed values
  change (malformed lookup ≠ [] → (if malformed lookup = [] then _ else _) = _) ∧
    (malformed lookup = [] → ∃ d, _ ∧ (if malformed lookup = [] then _ else _) = _)
  refine ⟨fun hbad => if_neg hbad, fun hgood => ⟨_, fun e => ?_, if_pos hgood⟩⟩
  unfold malformed at hgood
  obtain ⟨hgood, hgood₃⟩ := List.append_eq_nil_iff.1 hgood
  obtain ⟨hgood₁, hgood₂⟩ := List.append_eq_nil_iff.1 hgood
  constructor
  · rintro ⟨h₁, h₂, h₃⟩
    rw [hcolumns hgood₁] at h₁
    rw [hrows hgood₂] at h₂
    rw [horientation hgood₃] at h₃
    obtain ⟨⟨columns, rows⟩, orientation⟩ := e
    simp only at h₁ h₂ h₃
    rw [h₁, h₂, h₃]
  · rintro rfl
    exact ⟨(hcolumns hgood₁ _).2 rfl, (hrows hgood₂ _).2 rfl, (horientation hgood₃ _).2 rfl⟩

theorem exists_of_mem_objections {value : Option String} {Form : String → Prop}
    [DecidablePred Form] {complaint : String → Complaint} {e : Complaint}
    (h : e ∈ objections value Form complaint) : ∃ raw, value = some raw ∧ e = complaint raw := by
  obtain ⟨raw, hraw, rfl⟩ := List.mem_map.1 h
  exact ⟨raw, Option.mem_toList.1 (List.mem_filter.1 hraw).1, rfl⟩

/-- A complaint about a malformed value names its variable and quotes the value. -/
theorem exists_of_mem_malformed {e : Complaint} (h : e ∈ malformed lookup) :
    ∃ name raw, lookup name = some raw ∧
      (e = .notANumber name raw ∨ e = .notAnOrientation name raw) := by
  unfold malformed at h
  rw [List.mem_append, List.mem_append] at h
  rcases h with (h | h) | h <;> obtain ⟨raw, hraw, he⟩ := exists_of_mem_objections h
  · exact ⟨_, raw, hraw, Or.inl he⟩
  · exact ⟨_, raw, hraw, Or.inl he⟩
  · exact ⟨_, raw, hraw, Or.inr he⟩

theorem validated_eq_ok_iff : c.validated = .ok d ↔ c = d ∧ d.limits.Roomy := by
  unfold validated
  split
  · next h =>
    rw [Except.ok.injEq]
    constructor
    · rintro rfl
      exact ⟨rfl, complaints_eq_nil_iff.1 h⟩
    · exact And.left
  · next h =>
    refine iff_of_false nofun ?_
    rintro ⟨rfl, hroomy⟩
    exact h (complaints_eq_nil_iff.2 hroomy)

/-- Settings that are not refused follow the variables and leave room for a panel. -/
theorem override_eq_ok_iff :
    c.override lookup = .ok d ↔
      malformed lookup = [] ∧ FollowsAll lookup c d ∧ d.limits.Roomy := by
  obtain ⟨hbad, hgood⟩ := override_eq c lookup
  by_cases hnil : malformed lookup = []
  · obtain ⟨e, hunique, heq⟩ := hgood hnil
    rw [heq, validated_eq_ok_iff, hunique, eq_comm (a := e)]
    exact (and_iff_right hnil).symm
  · rw [hbad hnil]
    exact iff_of_false nofun fun h => hnil h.1

/-- **The same variables change nothing the second time.** -/
theorem override_of_override (h : c.override lookup = .ok d) : d.override lookup = .ok d := by
  obtain ⟨hgood, hfollows, hroomy⟩ := override_eq_ok_iff.1 h
  exact override_eq_ok_iff.2 ⟨hgood, ⟨⟨fun _ => rfl, hfollows.columns.2⟩,
    ⟨fun _ => rfl, hfollows.rows.2⟩, ⟨fun _ => rfl, hfollows.orientation.2⟩⟩, hroomy⟩

/-- The decimal digits of a limit stand for it. -/
theorem limitText_repr (n : UInt32) : LimitText (Nat.repr n.toNat) n := by
  refine ⟨[], [], Nat.toDigits 10 n.toNat, [], by simp [Nat.toList_repr], nofun, Or.inl rfl,
    Nat.toDigits_ne_nil, fun c => Nat.isDigit_of_mem_toDigits (by decide) (by decide), ?_⟩
  exact Nat.ofDigitChars_toDigits (by decide) (by decide)

theorem orientationText_name (o : Orientation) : OrientationText o.name o :=
  ⟨[], o.name.toList, [], by simp, nofun, by cases o <;> decide⟩

/-- The variables that a list sets, and no others. -/
def listed (vs : List (String × String)) (name : String) : Option String :=
  vs.lookup name

/-- **Variables lead from any settings to any others that leave room for a panel.** -/
theorem exists_override (hroomy : d.limits.Roomy) :
    ∃ lookup, ∀ c : Config, c.override lookup = .ok d := by
  let lookup := listed [(columnsVariable, Nat.repr d.limits.columns.toNat),
    (rowsVariable, Nat.repr d.limits.rows.toNat), (orientationVariable, d.orientation.name)]
  have hcolumns : lookup columnsVariable = some (Nat.repr d.limits.columns.toNat) := rfl
  have hrows : lookup rowsVariable = some (Nat.repr d.limits.rows.toNat) := rfl
  have horientation : lookup orientationVariable = some d.orientation.name := rfl
  refine ⟨lookup, fun c => override_eq_ok_iff.2 ⟨?_, ⟨?_, ?_, ?_⟩, hroomy⟩⟩
  · have hlimit (n : UInt32) : IsLimit (Nat.repr n.toNat) := ⟨n, limitText_repr n⟩
    have hname : IsOrientation d.orientation.name := ⟨_, orientationText_name _⟩
    simp [malformed, objections, hcolumns, hrows, horientation, hlimit, hname]
  · rw [hcolumns]
    exact ⟨nofun, fun raw h => Option.some.inj h ▸ limitText_repr _⟩
  · rw [hrows]
    exact ⟨nofun, fun raw h => Option.some.inj h ▸ limitText_repr _⟩
  · rw [horientation]
    exact ⟨nofun, fun raw h => Option.some.inj h ▸ orientationText_name _⟩

/-- **Overriding settings from end to end.**  If a variable is set to a malformed value, there is
one complaint for each such variable, in the order of the variables, which quotes the value, and
none about a zero.  Otherwise exactly one configuration has what the variables stand for and keeps
the rest; it is the result if both limits are at least one, and else there is one complaint for each
limit that is zero.  Any settings can be repaired in this way, and what has been repaired stays as
it is. -/
theorem override_endToEnd :
    (∀ (c : Config) (lookup : String → Option String),
      (malformed lookup ≠ [] → c.override lookup = .error (.invalid (malformed lookup))) ∧
      (∀ e ∈ malformed lookup, e ≠ .zeroColumns ∧ e ≠ .zeroRows ∧
        ∃ name raw, lookup name = some raw ∧
          (e.message = name ++ ": not a number: " ++ Text.quote raw ∨
            e.message = name ++ ": unknown orientation " ++ Text.quote raw)) ∧
      (malformed lookup = [] → ∃ d, (∀ e, FollowsAll lookup c e ↔ e = d) ∧
        c.override lookup =
          if 1 ≤ d.limits.columns ∧ 1 ≤ d.limits.rows then .ok d
          else .error (.invalid ((if d.limits.columns = 0 then [.zeroColumns] else []) ++
            if d.limits.rows = 0 then [.zeroRows] else []))) ∧
      (∀ d, c.override lookup = .ok d → d.override lookup = .ok d)) ∧
    ∀ d : Config, 1 ≤ d.limits.columns ∧ 1 ≤ d.limits.rows →
      ∃ lookup, ∀ c : Config, c.override lookup = .ok d := by
  have hpositive : ∀ n : UInt32, 1 ≤ n ↔ n ≠ 0 := by
    intro n
    rw [UInt32.le_iff_toNat_le, ne_eq, ← UInt32.toNat_inj]
    exact Nat.one_le_iff_ne_zero
  have hroomy : ∀ d : Config, 1 ≤ d.limits.columns ∧ 1 ≤ d.limits.rows ↔ d.limits.Roomy :=
    fun d => and_congr (hpositive _) (hpositive _)
  refine ⟨fun c lookup => ⟨(override_eq c lookup).1, fun e he => ?_, fun hgood => ?_,
    fun d => override_of_override⟩, fun d hd => exists_override ((hroomy d).1 hd)⟩
  · obtain ⟨name, raw, hraw, rfl | rfl⟩ := exists_of_mem_malformed he
    · exact ⟨nofun, nofun, name, raw, hraw, Or.inl rfl⟩
    · exact ⟨nofun, nofun, name, raw, hraw, Or.inr rfl⟩
  · obtain ⟨d, hunique, heq⟩ := (override_eq c lookup).2 hgood
    refine ⟨d, hunique, heq.trans ?_⟩
    unfold validated
    simp only [complaints_eq_nil_iff, hroomy]
    rfl

/-- Two variables with a limit of zero before them, and three malformed ones. -/
theorem override_endToEnd_repaired :
    malformed (listed [(columnsVariable, " +04"), (orientationVariable, "Vertical\t")]) = [] ∧
      Config.override ⟨⟨0, 2⟩, .horizontal⟩
          (listed [(columnsVariable, " +04"), (orientationVariable, "Vertical\t")]) =
        .ok ⟨⟨4, 2⟩, .vertical⟩ ∧
      Config.override ⟨⟨4, 2⟩, .vertical⟩
          (listed [(columnsVariable, " +04"), (orientationVariable, "Vertical\t")]) =
        .ok ⟨⟨4, 2⟩, .vertical⟩ ∧
      Config.override ⟨⟨0, 2⟩, .horizontal⟩ (fun _ => some "many") =
        .error (.invalid [.notANumber columnsVariable "many", .notANumber rowsVariable "many",
          .notAnOrientation orientationVariable "many"]) := by
  have hgood : malformed (listed [(columnsVariable, " +04"),
      (orientationVariable, "Vertical\t")]) = [] := by decide +kernel
  have hrepaired : Config.override ⟨⟨0, 2⟩, .horizontal⟩
      (listed [(columnsVariable, " +04"), (orientationVariable, "Vertical\t")]) =
        .ok ⟨⟨4, 2⟩, .vertical⟩ := by decide +kernel
  have hbad : malformed (fun _ => some "many") = [.notANumber columnsVariable "many",
      .notANumber rowsVariable "many", .notAnOrientation orientationVariable "many"] := by
    decide +kernel
  obtain ⟨-, -, -, hagain⟩ := override_endToEnd.1 ⟨⟨0, 2⟩, .horizontal⟩
    (listed [(columnsVariable, " +04"), (orientationVariable, "Vertical\t")])
  obtain ⟨hrefused, -⟩ := override_endToEnd.1 ⟨⟨0, 2⟩, .horizontal⟩ fun _ => some "many"
  refine ⟨hgood, hrepaired, hagain _ hrepaired, ?_⟩
  rw [hrefused (by rw [hbad]; nofun), hbad]

end Config

end Mosaic
