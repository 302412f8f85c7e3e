import Mathlib.Data.List.Perm.Basic
import Mathlib.Data.List.Nodup
import Mosaic.Layout.Candidates
import Mosaic.Layout.Removal

/-!
# What edits do to the panels

Each edit of a layout is said once, as the list of its panels afterwards up to order, and later
proofs rest on that alone.  Nothing here depends on the arithmetic.

* `Layout.Split s t p cut kept created id`: `t` is `s` with the panel `p` halved, one half under its
  own label and one under the new label `id`.  Every candidate is such a layout under the label of
  pending panels, and by `Layout.Successor.exists_split_of_admits` it becomes one under another
  label when its pending panel is given that.
* `Layout.remove_eq`: a removal leaves no panel, or one that fills the workspace, or hands the area
  over to a flank.  By `Layout.flank_panels` a flank is the list of panels that touch one side.
-/

namespace Mosaic

open Coordinate

variable {α : Type}

/-! ### Twins -/

namespace Flank

variable [Coordinate α] {f : Flank α} {q : Panel α} {r : Rect α}

theorem isTwin_iff_of_panels_eq (h : f.panels = [q]) :
    f.IsTwin r ↔ (r.along f.boundary.flip).Twins (q.rect.along f.boundary.flip) := by
  unfold IsTwin
  rw [h]

theorem IsTwin.exists_panels_eq (h : f.IsTwin r) : ∃ q, f.panels = [q] := by
  unfold IsTwin at h
  split at h
  · next q hq => exact ⟨q, hq⟩
  · exact h.elim

end Flank

namespace Layout

variable {s t : Layout α} {p q : Panel α} {id : PanelId}

/-! ### Membership -/

theorem mem_panels_iff : p ∈ s.panels ↔ s.find? p.id = some p.rect :=
  find?_eq_some_iff.symm

theorem nodup_panels (s : Layout α) : s.panels.Nodup :=
  s.ascending.imp fun h heq => PanelId.ne_of_lt h (congrArg Panel.id heq)

theorem eq_of_id_eq (hp : p ∈ s.panels) (hq : q ∈ s.panels) (h : p.id = q.id) : p = q := by
  rw [mem_panels_iff] at hp hq
  rw [h, hq] at hp
  cases p
  cases q
  simp_all

theorem ext_mem (ho : s.orientation = t.orientation) (h : ∀ q, q ∈ s.panels ↔ q ∈ t.panels) :
    s = t :=
  ext_panels ho (s.ascending.eq_of_mem_iff t.ascending h)

theorem mem_ids : id ∈ s.ids ↔ ∃ p ∈ s.panels, p.id = id :=
  List.mem_map

theorem mem_put : q ∈ (s.put p).panels ↔ q = p ∨ q ∈ s.panels ∧ q.id ≠ p.id := by
  rw [mem_panels_iff, find?_put, mem_panels_iff]
  split
  next h =>
    constructor
    · intro hr
      left
      cases p
      cases q
      simp_all
    · rintro (rfl | ⟨-, hne⟩)
      · rfl
      · exact absurd h.symm hne
  next h =>
    constructor
    · intro hr
      exact Or.inr ⟨hr, Ne.symm h⟩
    · rintro (rfl | ⟨hr, -⟩)
      · exact absurd rfl h
      · exact hr

theorem mem_erase : q ∈ (s.erase id).panels ↔ q ∈ s.panels ∧ q.id ≠ id := by
  simp [erase]

theorem mem_panels_single [Coordinate α] {o : Orientation} :
    q ∈ (single id o : Layout α).panels ↔ q = ⟨id, .unit⟩ := by
  have hpanels : (single id o : Layout α).panels = [⟨id, .unit⟩] := rfl
  rw [hpanels, List.mem_singleton]

theorem mem_putAll {ps : List (Panel α)} (h : ps.Pairwise (·.id ≠ ·.id)) :
    q ∈ (s.putAll ps).panels ↔ q ∈ ps ∨ q ∈ s.panels ∧ ∀ p ∈ ps, q.id ≠ p.id := by
  induction ps generalizing s with
  | nil => simp [putAll]
  | cons p ps ih =>
    have hp := List.pairwise_cons.1 h
    change q ∈ ((s.put p).putAll ps).panels ↔ _
    rw [ih hp.2, mem_put]
    simp only [List.mem_cons, forall_eq_or_imp]
    constructor
    · rintro (hq | ⟨rfl | ⟨hq, hne⟩, hall⟩)
      · exact Or.inl (Or.inr hq)
      · exact Or.inl (Or.inl rfl)
      · exact Or.inr ⟨hq, hne, hall⟩
    · rintro ((rfl | hq) | ⟨hq, hne, hall⟩)
      · exact Or.inr ⟨Or.inl rfl, hp.1⟩
      · exact Or.inl hq
      · exact Or.inr ⟨Or.inr ⟨hq, hne⟩, hall⟩

/-- A panel comes first, and the others keep their order. -/
theorem perm_cons_erase (hp : p ∈ s.panels) : s.panels.Perm (p :: (s.erase p.id).panels) := by
  refine (List.perm_ext_iff_of_nodup s.nodup_panels ?_).2 fun q => ?_
  · exact List.nodup_cons.2 ⟨fun h => (mem_erase.1 h).2 rfl, nodup_panels _⟩
  · rw [List.mem_cons, mem_erase]
    constructor
    · intro hq
      by_cases h : q.id = p.id
      · exact Or.inl (eq_of_id_eq hq hp h)
      · exact Or.inr ⟨hq, h⟩
    · rintro (rfl | ⟨hq, -⟩)
      · exact hp
      · exact hq

theorem size_erase (hp : p ∈ s.panels) : s.size = (s.erase p.id).size + 1 :=
  (perm_cons_erase hp).length_eq

/-! ### Splits -/

theorem mem_withHalves {kept created : Rect α} (hid : id ≠ .pending) :
    q ∈ (s.withHalves id kept created).panels ↔
      (q = ⟨id, kept⟩ ∨ q = ⟨.pending, created⟩) ∨ q ∈ s.panels ∧ q.id ≠ id ∧ q.id ≠ .pending := by
  unfold withHalves
  rw [mem_putAll (by simpa using hid)]
  simp

theorem commit_eq_ok (ht : s.commit id = .ok t) :
    id ≠ .pending ∧ id ∉ s.ids ∧
      ∃ r, ⟨.pending, r⟩ ∈ s.panels ∧ t = (s.erase .pending).put ⟨id, r⟩ := by
  unfold commit at ht
  split_ifs at ht with hpending hcontains
  refine ⟨hpending, fun h => hcontains (contains_iff.2 h), ?_⟩
  cases hr : s.pending? with
  | none => simp [hr] at ht
  | some r =>
    simp only [hr, Except.ok.injEq] at ht
    exact ⟨r, find?_eq_some_iff.1 hr, ht.symm⟩

/-- The panels after the pending half has got its label. -/
theorem mem_put_created {kept created : Rect α} (hpending : .pending ∉ s.ids) (hp : p ∈ s.panels)
    (hne : id ≠ p.id) (hfresh : id ∉ s.ids) :
    q ∈ (((s.withHalves p.id kept created).erase .pending).put ⟨id, created⟩).panels ↔
      q = ⟨p.id, kept⟩ ∨ q = ⟨id, created⟩ ∨ q ∈ s.panels ∧ q.id ≠ p.id := by
  have hpid : p.id ≠ .pending := fun h => hpending (mem_ids.2 ⟨p, hp, h⟩)
  rw [mem_put, mem_erase, mem_withHalves hpid]
  constructor
  · rintro (rfl | ⟨⟨(rfl | rfl) | ⟨hq, hqp, -⟩, hqn⟩, -⟩)
    · exact Or.inr (Or.inl rfl)
    · exact Or.inl rfl
    · exact absurd rfl hqn
    · exact Or.inr (Or.inr ⟨hq, hqp⟩)
  · rintro (rfl | rfl | ⟨hq, hqp⟩)
    · exact Or.inr ⟨⟨Or.inl (Or.inl rfl), hpid⟩, hne.symm⟩
    · exact Or.inl rfl
    · have hqn : q.id ≠ .pending := fun h => hpending (mem_ids.2 ⟨q, hq, h⟩)
      have hqid : q.id ≠ id := fun h => hfresh (mem_ids.2 ⟨q, hq, h⟩)
      exact Or.inr ⟨⟨Or.inr ⟨hq, hqp, hqn⟩, hqn⟩, hqid⟩

section Split

variable [Coordinate α] {limits : Limits} {cs : List (Layout α)} {c : Layout α}

/-- `t` is a candidate for the next layout within the limits, and its pending panel has got the
label `id`. -/
def Successor (s : Layout α) (limits : Limits) (id : PanelId) (t : Layout α) : Prop :=
  ∃ cs, s.candidates limits = .ok cs ∧ ∃ c ∈ cs, c.commit id = .ok t

theorem successor_iff [DecidableEq α] :
    s.Successor limits id t ↔
      (s.candidates limits).map (·.any fun c => c.commit id = .ok t) = .ok true := by
  unfold Successor
  cases s.candidates limits <;> simp [Except.map]

/-- `t` is `s` with the panel `p` halved: `kept` stays under its label and `created` comes under
the new label `id`. -/
structure Split (s t : Layout α) (p : Panel α) (cut : Orientation) (kept created : Rect α)
    (id : PanelId) : Prop where
  orientation : t.orientation = s.orientation
  mem : p ∈ s.panels
  fresh : id ∉ s.ids
  halves : p.rect.split cut = (kept, created) ∨ p.rect.split cut = (created, kept)
  perm : t.panels.Perm (⟨p.id, kept⟩ :: ⟨id, created⟩ :: (s.erase p.id).panels)

namespace Split

variable {cut : Orientation} {kept created : Rect α}

/-- The panels after a split are the halves and the other panels. -/
theorem mem_iff (h : s.Split t p cut kept created id) :
    q ∈ t.panels ↔ q = ⟨p.id, kept⟩ ∨ q = ⟨id, created⟩ ∨ q ∈ s.panels ∧ q ≠ p := by
  rw [h.perm.mem_iff, List.mem_cons, List.mem_cons, mem_erase]
  refine or_congr_right (or_congr_right (and_congr_right fun hq => not_congr ?_))
  exact ⟨eq_of_id_eq hq h.mem, congrArg Panel.id⟩

theorem mem_kept (h : s.Split t p cut kept created id) : ⟨p.id, kept⟩ ∈ t.panels :=
  h.mem_iff.2 (Or.inl rfl)

/-- No panel before a split has the new label. -/
theorem id_ne (h : s.Split t p cut kept created id) (hq : q ∈ s.panels) : q.id ≠ id :=
  fun heq => h.fresh (mem_ids.2 ⟨q, hq, heq⟩)

theorem size_eq (h : s.Split t p cut kept created id) : t.size = s.size + 1 := by
  have hlength := h.perm.length_eq
  have hsize := size_erase h.mem
  unfold size at *
  simp only [List.length_cons] at hlength
  omega

end Split

theorem exists_of_mem_halvings {cut : Orientation} (hc : c ∈ s.halvings p cut) :
    ∃ kept created, c = s.withHalves p.id kept created ∧
      (p.rect.split cut = (kept, created) ∨ p.rect.split cut = (created, kept)) := by
  unfold halvings at hc
  rcases hsplit : p.rect.split cut with ⟨first, second⟩
  simp only [hsplit, List.mem_cons] at hc
  rcases hc with rfl | hc
  · exact ⟨first, second, rfl, Or.inl rfl⟩
  · split at hc
    · simp at hc
    · rw [List.mem_singleton] at hc
      exact ⟨second, first, hc, Or.inr rfl⟩

/-- There is a list of candidates as long as the layout is within the limits and nothing is
pending. -/
theorem candidates_eq_ok_iff : s.candidates limits = .ok cs ↔
    limits.Roomy ∧ .pending ∉ s.ids ∧ s.size ≤ limits.capacity ∧
      cs = if s.size = limits.capacity then [] else s.panels.flatMap (s.candidatesAt limits) := by
  unfold candidates
  constructor
  · intro h
    split_ifs at h with hroomy hpending hover hfull
    · cases h
      exact ⟨hroomy, fun h => hpending (contains_iff.2 h), Nat.le_of_not_lt hover, (if_pos hfull).symm⟩
    · cases h
      exact ⟨hroomy, fun h => hpending (contains_iff.2 h), Nat.le_of_not_lt hover, (if_neg hfull).symm⟩
  · rintro ⟨hroomy, hpending, hsize, rfl⟩
    rw [if_neg (not_not_intro hroomy), if_neg (fun h => hpending (contains_iff.1 h)),
      if_neg (Nat.not_lt.2 hsize), apply_ite Except.ok]

/-- A candidate halves one panel, which admits the cut, in a layout where none is pending. -/
theorem exists_of_mem_candidates (hcs : s.candidates limits = .ok cs) (hc : c ∈ cs) :
    .pending ∉ s.ids ∧ ∃ p ∈ s.panels, ∃ cut, s.Admits limits p cut ∧
      ∃ kept created, c = s.withHalves p.id kept created ∧
        (p.rect.split cut = (kept, created) ∨ p.rect.split cut = (created, kept)) := by
  obtain ⟨-, hpending, -, rfl⟩ := candidates_eq_ok_iff.1 hcs
  split_ifs at hc
  · cases hc
  · obtain ⟨p, hp, hc⟩ := List.mem_flatMap.1 hc
    obtain ⟨cut, hcut, hc⟩ := List.mem_flatMap.1 hc
    exact ⟨hpending, p, hp, cut, of_decide_eq_true (List.mem_filter.1 hcut).2,
      exists_of_mem_halvings hc⟩

/-- The pending panel of a candidate can get any label that is not in use. -/
theorem exists_commit_of_mem_candidates (hcs : s.candidates limits = .ok cs) (hc : c ∈ cs)
    (hid : id ≠ .pending) (hfresh : id ∉ s.ids) : ∃ t, c.commit id = .ok t := by
  obtain ⟨hpending, p, hp, -, -, kept, created, rfl, -⟩ := exists_of_mem_candidates hcs hc
  have hpid : p.id ≠ .pending := fun h => hpending (mem_ids.2 ⟨p, hp, h⟩)
  have hnot : ¬ (s.withHalves p.id kept created).contains id := by
    rw [contains_iff, mem_ids]
    rintro ⟨q, hq, rfl⟩
    rcases (mem_withHalves hpid).1 hq with (rfl | rfl) | ⟨hq, -⟩
    · exact hfresh (mem_ids.2 ⟨p, hp, rfl⟩)
    · exact hid rfl
    · exact hfresh (mem_ids.2 ⟨q, hq, rfl⟩)
  have hfind : (s.withHalves p.id kept created).pending? = some created :=
    find?_eq_some_iff.2 ((mem_withHalves hpid).2 (Or.inl (Or.inr rfl)))
  unfold commit
  rw [if_neg hid, if_neg hnot, hfind]
  exact ⟨_, rfl⟩

/-- A layout is a split as soon as it has the right panels, since it lists each of them once. -/
theorem split_of_mem_iff {cut : Orientation} {kept created : Rect α}
    (ho : t.orientation = s.orientation) (hp : p ∈ s.panels) (hne : id ≠ p.id) (hfresh : id ∉ s.ids)
    (hhalves : p.rect.split cut = (kept, created) ∨ p.rect.split cut = (created, kept))
    (hmem : ∀ q, q ∈ t.panels ↔ q = ⟨p.id, kept⟩ ∨ q = ⟨id, created⟩ ∨ q ∈ s.panels ∧ q.id ≠ p.id) :
    s.Split t p cut kept created id := by
  refine ⟨ho, hp, hfresh, hhalves, ?_⟩
  refine (List.perm_ext_iff_of_nodup (nodup_panels _) ?_).2 fun q => ?_
  · simp only [List.nodup_cons, List.mem_cons, mem_erase]
    refine ⟨?_, fun h => hfresh (mem_ids.2 ⟨_, h.1, rfl⟩), nodup_panels _⟩
    rintro (heq | h)
    · exact hne (congrArg Panel.id heq).symm
    · exact h.2 rfl
  · rw [hmem]
    simp only [List.mem_cons, mem_erase]

/-- **A candidate is a split under the label of pending panels.** -/
theorem exists_split_of_mem_candidates (hcs : s.candidates limits = .ok cs) (hc : c ∈ cs) :
    ∃ p cut kept created, s.Split c p cut kept created .pending ∧ s.Admits limits p cut := by
  obtain ⟨hpending, p, hp, cut, hadmits, kept, created, rfl, hhalves⟩ :=
    exists_of_mem_candidates hcs hc
  have hne : .pending ≠ p.id := fun h => hpending (mem_ids.2 ⟨p, hp, h.symm⟩)
  refine ⟨p, cut, kept, created, split_of_mem_iff ?_ hp hne hpending hhalves fun q => ?_, hadmits⟩
  · exact orientation_putAll _ _
  · rw [mem_withHalves hne.symm, or_assoc]
    refine or_congr_right (or_congr_right (and_congr_right fun hq => ?_))
    exact and_iff_left fun h => hpending (mem_ids.2 ⟨q, hq, h⟩)

/-- **A candidate whose pending panel has got its label is a split of a panel that admits the
cut.** -/
theorem Successor.exists_split_of_admits (h : s.Successor limits id t) :
    ∃ p cut kept created, s.Split t p cut kept created id ∧ s.Admits limits p cut := by
  obtain ⟨cs, hcs, c, hc, ht⟩ := h
  obtain ⟨hpending, p, hp, cut, hadmits, kept, created, rfl, hsplit⟩ :=
    exists_of_mem_candidates hcs hc
  have hpid : p.id ≠ .pending := fun h => hpending (mem_ids.2 ⟨p, hp, h⟩)
  obtain ⟨hid, hunused, r, hr, rfl⟩ := commit_eq_ok ht
  -- only one panel of the candidate is pending, the half that the cut has created
  obtain rfl : r = created := by
    have hmem : (⟨.pending, created⟩ : Panel α) ∈ (s.withHalves p.id kept created).panels :=
      (mem_withHalves hpid).2 (Or.inl (Or.inr rfl))
    exact congrArg Panel.rect (eq_of_id_eq hr hmem rfl)
  have hne : id ≠ p.id := by
    rintro rfl
    exact hunused (mem_ids.2 ⟨_, (mem_withHalves hpid).2 (Or.inl (Or.inl rfl)), rfl⟩)
  have hfresh : id ∉ s.ids := by
    intro h
    obtain ⟨q, hq, rfl⟩ := mem_ids.1 h
    exact hunused (mem_ids.2 ⟨q, (mem_withHalves hpid).2 (Or.inr ⟨hq, hne, hid⟩), rfl⟩)
  refine ⟨p, cut, kept, r, split_of_mem_iff rfl hp hne hfresh hsplit fun q => ?_, hadmits⟩
  exact mem_put_created hpending hp hne hfresh

theorem Successor.exists_split (h : s.Successor limits id t) :
    ∃ p cut kept created, s.Split t p cut kept created id := by
  obtain ⟨p, cut, kept, created, hsplit, -⟩ := h.exists_split_of_admits
  exact ⟨p, cut, kept, created, hsplit⟩

end Split

/-! ### Removals -/

section Removal

variable [Coordinate α] {rest : Layout α}

/-- The contribution of one panel to a flank. -/
theorem filterMap_neighbours (p : Panel α) (r : Rect α) (b : Orientation) (side : Side) :
    ((Orientation.all.filter (· ∈ Orientation.all)).filterMap fun o =>
        (r.sideTouched p.rect o).map fun σ => (⟨p, o, σ⟩ : Neighbour α)).filterMap
      (fun n => if n.boundary = b ∧ n.side = side then some n.panel else none) =
      if r.sideTouched p.rect b = some side then [p] else [] := by
  rw [show Orientation.all.filter (· ∈ Orientation.all) = Orientation.all by rfl]
  unfold Orientation.all
  cases hh : r.sideTouched p.rect .horizontal <;> cases hv : r.sideTouched p.rect .vertical <;>
    cases b <;> simp only [List.filterMap_cons, List.filterMap_nil, hh, hv, Option.map_some,
      Option.map_none] <;> simp <;> split_ifs <;> rfl

/-- A flank is the list of panels that touch one side. -/
theorem flank_panels (rest : Layout α) (p : Panel α) (b : Orientation) (side : Side) :
    (rest.flank p b side).panels =
      rest.panels.filter fun q => q.id ≠ p.id ∧ p.rect.sideTouched q.rect b = some side := by
  unfold flank neighbours
  induction rest.panels with
  | nil => rfl
  | cons q ps ih =>
    by_cases hid : q.id = p.id
    · simpa [hid] using ih
    · simp only [ne_eq, hid, not_false_eq_true, decide_true, List.filter_cons_of_pos,
        List.flatMap_cons, List.filterMap_append, filterMap_neighbours] at ih ⊢
      rw [ih, List.filter_cons]
      by_cases h : p.rect.sideTouched q.rect b = some side <;> simp [hid, h]

theorem flank_boundary (rest : Layout α) (p : Panel α) (b : Orientation) (side : Side) :
    (rest.flank p b side).boundary = b := rfl

theorem mem_flank {b : Orientation} {side : Side} :
    q ∈ (rest.flank p b side).panels ↔
      q ∈ rest.panels ∧ q.id ≠ p.id ∧ p.rect.sideTouched q.rect b = some side := by
  simp [flank_panels]

theorem preferred_mem {fs : List (Flank α)} {f : Flank α} (h : Flank.preferred fs = some f) :
    f ∈ fs := by
  cases fs with
  | nil => cases h
  | cons g fs =>
    obtain rfl := Option.some.inj h
    induction fs generalizing g with
    | nil => simp
    | cons k fs ih =>
      rw [List.foldl_cons]
      split
      · exact List.mem_cons_of_mem g (ih k rfl)
      · rcases List.mem_cons.1 (ih g rfl) with heq | hmem
        · rw [heq]
          exact List.mem_cons_self
        · exact List.mem_cons_of_mem g (List.mem_cons_of_mem k hmem)

theorem preferred_eq_none_iff {fs : List (Flank α)} : Flank.preferred fs = none ↔ fs = [] := by
  cases fs <;> simp [Flank.preferred]

theorem mem_usableFlanks {b : Orientation} {f : Flank α} :
    f ∈ rest.usableFlanks p b ↔ ∃ side, f = rest.flank p b side ∧ f.Usable p.rect := by
  unfold usableFlanks
  rw [List.mem_filter, List.mem_map]
  constructor
  · rintro ⟨⟨side, -, rfl⟩, hu⟩
    exact ⟨side, rfl, of_decide_eq_true hu⟩
  · rintro ⟨side, rfl, hu⟩
    exact ⟨⟨side, by cases side <;> simp [Side.all], rfl⟩, decide_eq_true hu⟩

theorem heirs?_eq (rest : Layout α) (p : Panel α) :
    rest.heirs? p =
      ((rest.usableFlanks p rest.orientation ++
        rest.usableFlanks p rest.orientation.flip).find? (·.IsTwin p.rect)).or
      ((Flank.preferred (rest.usableFlanks p rest.orientation)).or
        (Flank.preferred (rest.usableFlanks p rest.orientation.flip))) := by
  unfold heirs?
  simp only [Option.orElse_eq_orElse, Option.orElse_eq_or]

/-- The heirs are a usable flank on some side.  Across the other boundaries than the preferred ones
they are a twin, or no side across the preferred ones has a usable flank. -/
theorem exists_of_heirs?_preferring {f : Flank α} (h : rest.heirs? p = some f) :
    ∃ b side, f = rest.flank p b side ∧ f.Usable p.rect ∧
      (b = rest.orientation.flip →
        (∀ side', ¬ (rest.flank p rest.orientation side').Usable p.rect) ∨ f.IsTwin p.rect) := by
  have hpreferred : ∀ {P : Prop}, rest.orientation = rest.orientation.flip → P :=
    fun heq => absurd heq.symm (Orientation.flip_ne _)
  rw [heirs?_eq, Option.or_eq_some_iff, Option.or_eq_some_iff] at h
  rcases h with h | ⟨-, h | ⟨hnone, h⟩⟩
  · have htwin : f.IsTwin p.rect := by simpa using List.find?_some h
    rcases List.mem_append.1 (List.mem_of_find?_eq_some h) with hf | hf <;>
      obtain ⟨side, hside, hu⟩ := mem_usableFlanks.1 hf <;>
      exact ⟨_, side, hside, hu, fun _ => Or.inr htwin⟩
  · obtain ⟨side, hside, hu⟩ := mem_usableFlanks.1 (preferred_mem h)
    exact ⟨_, side, hside, hu, hpreferred⟩
  · obtain ⟨side, hside, hu⟩ := mem_usableFlanks.1 (preferred_mem h)
    refine ⟨_, side, hside, hu, fun _ => Or.inl fun side' hu' => ?_⟩
    have hmem := mem_usableFlanks.2 ⟨side', rfl, hu'⟩
    rw [preferred_eq_none_iff.1 hnone] at hmem
    cases hmem

theorem exists_of_heirs? {f : Flank α} (h : rest.heirs? p = some f) :
    ∃ b side, f = rest.flank p b side ∧ f.Usable p.rect := by
  obtain ⟨b, side, hf, hu, -⟩ := exists_of_heirs?_preferring h
  exact ⟨b, side, hf, hu⟩

/-- The flank on a side can take the area of the panel, and is a twin of it. -/
def TwinFlank (rest : Layout α) (p : Panel α) (b : Orientation) (side : Side) : Prop :=
  (rest.flank p b side).Usable p.rect ∧ (rest.flank p b side).IsTwin p.rect

theorem find?_usableFlanks_eq_none {b : Orientation} :
    (rest.usableFlanks p b).find? (·.IsTwin p.rect) = none ↔
      ∀ side, ¬ rest.TwinFlank p b side := by
  rw [List.find?_eq_none]
  simp only [mem_usableFlanks, decide_eq_true_eq]
  constructor
  · rintro h side ⟨hu, ht⟩
    exact h _ ⟨side, rfl, hu⟩ ht
  · rintro h f ⟨side, rfl, hu⟩ ht
    exact h side ⟨hu, ht⟩

theorem exists_find?_of_twinFlank {b : Orientation} {side : Side} (h : rest.TwinFlank p b side) :
    ∃ side', (rest.usableFlanks p b).find? (·.IsTwin p.rect) = some (rest.flank p b side') ∧
      rest.TwinFlank p b side' := by
  cases hf : (rest.usableFlanks p b).find? (·.IsTwin p.rect) with
  | none => exact absurd h (find?_usableFlanks_eq_none.1 hf side)
  | some f =>
    obtain ⟨side', rfl, husable⟩ := mem_usableFlanks.1 (List.mem_of_find?_eq_some hf)
    exact ⟨side', rfl, husable, by simpa using List.find?_some hf⟩

/-- **A twin on the preferred boundaries goes first.** -/
theorem heirs?_of_twinFlank {b : Orientation} {side : Side} (ho : rest.orientation = b)
    (h : rest.TwinFlank p b side) :
    ∃ side', rest.heirs? p = some (rest.flank p b side') ∧ rest.TwinFlank p b side' := by
  obtain ⟨side', hfind, htwin⟩ := exists_find?_of_twinFlank h
  refine ⟨side', ?_, htwin⟩
  rw [heirs?_eq, ho, List.find?_append, hfind, Option.some_or, Option.some_or]

/-- **Without one, a twin on the other boundaries does.** -/
theorem heirs?_of_twinFlank_flip {b : Orientation} {side : Side} (ho : rest.orientation = b.flip)
    (hno : ∀ side, ¬ rest.TwinFlank p b.flip side) (h : rest.TwinFlank p b side) :
    ∃ side', rest.heirs? p = some (rest.flank p b side') ∧ rest.TwinFlank p b side' := by
  obtain ⟨side', hfind, htwin⟩ := exists_find?_of_twinFlank h
  refine ⟨side', ?_, htwin⟩
  rw [heirs?_eq, ho, Orientation.flip_flip, List.find?_append, find?_usableFlanks_eq_none.2 hno,
    hfind, Option.none_or, Option.some_or]

/-- There are heirs as soon as some side has a usable flank. -/
theorem heirs?_eq_none_iff :
    rest.heirs? p = none ↔ ∀ b side, ¬ (rest.flank p b side).Usable p.rect := by
  constructor
  · intro h b side hu
    rw [heirs?_eq, Option.or_eq_none_iff, Option.or_eq_none_iff, preferred_eq_none_iff,
      preferred_eq_none_iff] at h
    have hmem : rest.flank p b side ∈ rest.usableFlanks p b := mem_usableFlanks.2 ⟨side, rfl, hu⟩
    rcases Orientation.eq_or_eq_flip rest.orientation b with rfl | rfl
    · rw [h.2.1] at hmem
      cases hmem
    · rw [h.2.2] at hmem
      cases hmem
  · intro h
    cases hf : rest.heirs? p with
    | none => rfl
    | some f =>
      obtain ⟨b, side, rfl, hu⟩ := exists_of_heirs? hf
      exact absurd hu (h b side)

/-- A label that no panel has cannot be removed. -/
theorem remove_of_find?_eq_none (h : s.find? id = none) :
    s.remove id = .error (.unknownPanel id) := by
  unfold remove
  rw [h]

/-- What a removal does, by the number of panels that are left. -/
theorem remove_eq (hp : p ∈ s.panels) :
    s.remove p.id =
      match (s.erase p.id).panels with
      | [] => .ok (empty s.orientation)
      | [survivor] => .ok (single survivor.id s.orientation)
      | _ =>
        match (s.erase p.id).heirs? p with
        | none => .error (.noNeighbour p.id)
        | some f => .ok ((s.erase p.id).handOver p.rect f) := by
  have hfind := mem_panels_iff.1 hp
  match hrest : (s.erase p.id).panels with
  | [] => simp [remove, hfind, hrest]
  | [_] => simp [remove, hfind, hrest]
  | _ :: _ :: _ =>
    cases hheirs : (s.erase p.id).heirs? p <;> simp [remove, hfind, hrest, hheirs]

theorem remove_of_three_le (hp : p ∈ s.panels) (h : 3 ≤ s.size) :
    s.remove p.id =
      match (s.erase p.id).heirs? p with
      | none => .error (.noNeighbour p.id)
      | some f => .ok ((s.erase p.id).handOver p.rect f) := by
  have hsize : 2 ≤ (s.erase p.id).panels.length := by
    have := size_erase hp
    unfold size at *
    omega
  rw [remove_eq hp]
  match hrest : (s.erase p.id).panels with
  | [] => simp [hrest] at hsize
  | [_] => simp [hrest] at hsize
  | _ :: _ :: _ => rfl

/-- The panels of a flank grow, and all others stay as they are. -/
theorem perm_handOver (rest : Layout α) (r : Rect α) {f : Flank α} {P : Panel α → Bool}
    (hf : f.panels = rest.panels.filter P) :
    (rest.handOver r f).panels.Perm
      (f.panels.map (fun q => ⟨q.id, q.rect.growOver r f.boundary⟩) ++
        rest.panels.filter fun q => !P q) := by
  have hids : rest.panels.Pairwise (·.id ≠ ·.id) := rest.ascending.imp fun h => PanelId.ne_of_lt h
  have hgrown : (f.panels.map fun q => (⟨q.id, q.rect.growOver r f.boundary⟩ : Panel α)).Pairwise
      (·.id ≠ ·.id) := by
    rw [hf, List.pairwise_map]
    exact hids.filter P
  -- a grown panel keeps its label, so it replaces a panel of the flank and no other
  have hne : ∀ q ∈ f.panels, ∀ k ∈ rest.panels, P k = false → k.id ≠ q.id := by
    intro q hq k hk hPk heq
    rw [hf, List.mem_filter] at hq
    obtain rfl := eq_of_id_eq hk hq.1 heq
    simp [hPk] at hq
  refine (List.perm_ext_iff_of_nodup (nodup_panels _) ?_).2 fun k => ?_
  · refine List.nodup_append'.2 ⟨?_, rest.nodup_panels.filter _, fun k hk hk' => ?_⟩
    · exact hgrown.imp fun h heq => h (congrArg Panel.id heq)
    · obtain ⟨q, hq, rfl⟩ := List.mem_map.1 hk
      obtain ⟨hmem, hP⟩ := List.mem_filter.1 hk'
      exact hne q hq _ hmem (by simpa using hP) rfl
  · unfold handOver
    rw [mem_putAll hgrown, List.mem_append, List.mem_filter]
    refine or_congr_right (and_congr_right fun hk => ⟨fun h => ?_, fun hP q hq => ?_⟩)
    · by_contra hP
      have hkf : k ∈ f.panels := by
        rw [hf, List.mem_filter]
        exact ⟨hk, by simpa using hP⟩
      exact h _ (List.mem_map_of_mem hkf) rfl
    · obtain ⟨q', hq', rfl⟩ := List.mem_map.1 hq
      exact hne q' hq' k hk (by simpa using hP)

/-- After a removal a panel fills the workspace, has grown over the removed one, or was there
before. -/
theorem grown_or_mem_of_remove (hp : p ∈ s.panels) (ht : s.remove p.id = .ok t)
    (hq : q ∈ t.panels) : q.rect = .unit ∨
      (∃ k ∈ s.panels, ∃ b, q.rect = k.rect.growOver p.rect b) ∨ q ∈ s.panels := by
  rw [remove_eq hp] at ht
  split at ht
  next =>
    cases ht
    cases hq
  next survivor _ =>
    cases ht
    rw [mem_panels_single.1 hq]
    exact Or.inl rfl
  next =>
    split at ht
    · cases ht
    next f hf =>
      cases ht
      obtain ⟨b, side, rfl, -⟩ := exists_of_heirs? hf
      rw [(perm_handOver _ p.rect (flank_panels _ p b side)).mem_iff, List.mem_append,
        List.mem_map, List.mem_filter] at hq
      rcases hq with ⟨k, hk, rfl⟩ | ⟨hq, -⟩
      · exact Or.inr (Or.inl ⟨k, (mem_erase.1 (mem_flank.1 hk).1).1, b, rfl⟩)
      · exact Or.inr (Or.inr (mem_erase.1 hq).1)

end Removal

end Layout

end Mosaic
