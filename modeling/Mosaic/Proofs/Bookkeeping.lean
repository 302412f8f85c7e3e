import Mosaic.Proofs.Run

/-!
# Bookkeeping of labels

The caller chooses the labels of panels, and a call may be refused.  Whatever a run of splits,
removals and fresh starts does to the rectangles, no label is lost, doubled or left pending.
Nothing is assumed of the arithmetic here, so this holds for rounded numbers and for exact ones.

* `Layout.Split.perm_ids`, `Layout.remove_eq_ok`: what a split and a removal do to the labels.
* `Layout.remove_eq_error`: the two reasons to refuse a removal.
* `Config.Run`: the calls of a run, each recorded by what it has done to the labels.
* `Config.labels_of_run`: the labels in use after a run, and the refusals that can come next.
-/

namespace Mosaic

open Coordinate

variable {α : Type}

/-! ### What edits do to the labels -/

namespace Layout

variable {s t next : Layout α} {p : Panel α} {id other : PanelId}

theorem length_ids (s : Layout α) : s.ids.length = s.size :=
  List.length_map _

theorem mem_ids_of_mem (hp : p ∈ s.panels) : p.id ∈ s.ids :=
  mem_ids.2 ⟨p, hp, rfl⟩

theorem mem_ids_erase : other ∈ (s.erase id).ids ↔ other ∈ s.ids ∧ other ≠ id := by
  simp only [mem_ids, mem_erase]
  constructor
  · rintro ⟨p, ⟨hp, hne⟩, rfl⟩
    exact ⟨⟨p, hp, rfl⟩, hne⟩
  · rintro ⟨⟨p, hp, rfl⟩, hne⟩
    exact ⟨p, ⟨hp, hne⟩, rfl⟩

theorem find?_eq_none_iff : s.find? id = none ↔ id ∉ s.ids := by
  rw [← contains_iff, contains, Bool.not_eq_true, Option.isSome_eq_false_iff,
    Option.isNone_iff_eq_none]

variable [Coordinate α] {limits : Limits} {cs : List (Layout α)} {e : Refusal}

theorem ids_single (id : PanelId) (o : Orientation) : (single id o : Layout α).ids = [id] :=
  rfl

/-- A split adds its label and keeps the others. -/
theorem Split.perm_ids {cut : Orientation} {kept created : Rect α}
    (h : s.Split t p cut kept created id) : t.ids.Perm (id :: s.ids) := by
  have herase : s.ids.Perm (p.id :: (s.erase p.id).ids) := (perm_cons_erase h.mem).map _
  have hids : t.ids.Perm (p.id :: id :: (s.erase p.id).ids) := h.perm.map _
  exact hids.trans ((List.Perm.swap _ _ _).trans (herase.symm.cons id))

/-- The panels of a flank keep their labels as they grow. -/
theorem perm_ids_handOver (rest : Layout α) (r : Rect α) (p : Panel α) (b : Orientation)
    (side : Side) : (rest.handOver r (rest.flank p b side)).ids.Perm rest.ids := by
  have hperm := (perm_handOver rest r (flank_panels rest p b side)).map (·.id)
  rw [List.map_append, List.map_map, flank_panels] at hperm
  refine hperm.trans ?_
  have hids := List.Perm.map (·.id) <| List.filter_append_perm
    (fun q => decide (q.id ≠ p.id ∧ p.rect.sideTouched q.rect b = some side)) rest.panels
  rwa [List.map_append] at hids

/-- **A removal drops its label and keeps the others.** -/
theorem remove_eq_ok (hp : p ∈ s.panels) (ht : s.remove p.id = .ok t) :
    t.orientation = s.orientation ∧ t.ids.Perm (s.erase p.id).ids := by
  rw [remove_eq hp] at ht
  split at ht
  next hrest =>
    cases ht
    have hids : (s.erase p.id).ids = [] := congrArg (List.map Panel.id) hrest
    exact ⟨rfl, by rw [hids]; rfl⟩
  next survivor hrest =>
    cases ht
    have hids : (s.erase p.id).ids = [survivor.id] := congrArg (List.map Panel.id) hrest
    exact ⟨rfl, by rw [hids, ids_single]⟩
  next =>
    split at ht
    · cases ht
    next f hf =>
      cases ht
      obtain ⟨b, side, rfl, -⟩ := exists_of_heirs? hf
      exact ⟨orientation_putAll _ _, perm_ids_handOver _ _ _ _ _⟩

/-- **A removal is refused for an unknown label, or for want of heirs among two others or more.** -/
theorem remove_eq_error (he : s.remove id = .error e) :
    id ∉ s.ids ∧ e = .unknownPanel id ∨ id ∈ s.ids ∧ 3 ≤ s.size ∧ e = .noNeighbour id := by
  cases hfind : s.find? id with
  | none =>
    rw [remove_of_find?_eq_none hfind] at he
    cases he
    exact Or.inl ⟨find?_eq_none_iff.1 hfind, rfl⟩
  | some r =>
    have hp : (⟨id, r⟩ : Panel α) ∈ s.panels := find?_eq_some_iff.1 hfind
    have hsize : s.size = (s.erase id).size + 1 := size_erase hp
    have heq := remove_eq hp
    rw [he] at heq
    split at heq
    · cases heq
    · cases heq
    next hnil hone =>
      have hrest : 2 ≤ (s.erase id).size := by
        unfold size
        match hpanels : (s.erase id).panels with
        | [] => exact absurd hpanels hnil
        | [survivor] => exact absurd hpanels (hone survivor)
        | _ :: _ :: _ => simp
      split at heq
      · cases heq
        exact Or.inr ⟨mem_ids_of_mem hp, by omega, rfl⟩
      · cases heq

/-! ### What candidates do -/

theorem exists_candidates (hroomy : limits.Roomy) (hpending : .pending ∉ s.ids)
    (hsize : s.size ≤ limits.capacity) : ∃ cs, s.candidates limits = .ok cs :=
  ⟨_, candidates_eq_ok_iff.2 ⟨hroomy, hpending, hsize, rfl⟩⟩

/-- A layout with a candidate is not full. -/
theorem size_lt_capacity (hcs : s.candidates limits = .ok cs) (hnext : next ∈ cs) :
    s.size < limits.capacity := by
  obtain ⟨-, -, hsize, rfl⟩ := candidates_eq_ok_iff.1 hcs
  refine hsize.lt_of_ne fun hfull => ?_
  rw [if_pos hfull] at hnext
  cases hnext

/-- Only one label of a candidate is not one of the layout before. -/
theorem mem_ids_of_mem_candidates (hcs : s.candidates limits = .ok cs) (hnext : next ∈ cs) :
    id ∈ next.ids ↔ id = .pending ∨ id ∈ s.ids := by
  obtain ⟨p, cut, kept, created, hsplit, -⟩ := exists_split_of_mem_candidates hcs hnext
  rw [hsplit.perm_ids.mem_iff, List.mem_cons]

/-- **The pending panel of a candidate gets every label but the reserved one and those in use.** -/
theorem commit_of_mem_candidates (hcs : s.candidates limits = .ok cs) (hnext : next ∈ cs)
    (id : PanelId) :
    ((∃ t, next.commit id = .ok t) ↔ id ≠ .pending ∧ id ∉ s.ids) ∧
      (id = .pending → next.commit id = .error .reservedLabel) ∧
      (id ≠ .pending → id ∈ s.ids → next.commit id = .error (.duplicatePanel id)) := by
  have hmem : id ∈ next.ids ↔ id = .pending ∨ id ∈ s.ids := mem_ids_of_mem_candidates hcs hnext
  refine ⟨⟨?_, fun ⟨hid, hfresh⟩ => exists_commit_of_mem_candidates hcs hnext hid hfresh⟩, ?_, ?_⟩
  · rintro ⟨t, ht⟩
    obtain ⟨hid, hunused, -⟩ := commit_eq_ok ht
    exact ⟨hid, fun h => hunused (hmem.2 (Or.inr h))⟩
  · intro hid
    exact if_pos hid
  · intro hid hused
    unfold commit
    rw [if_neg hid, if_pos (contains_iff.2 (hmem.2 (Or.inr hused)))]

end Layout

/-! ### Events -/

namespace Config

/-- What a call has done to the labels in use. -/
inductive Event where
  | introduced (id : PanelId)
  | removed (id : PanelId)
  | refused (reason : Refusal)

/-- The label has been introduced and not removed since.  The last event comes first. -/
def Live (es : List Event) (id : PanelId) : Prop :=
  ∃ newer older, es = newer ++ .introduced id :: older ∧ .removed id ∉ newer

theorem live_cons {e : Event} {es : List Event} {id : PanelId} :
    Live (e :: es) id ↔ e = .introduced id ∨ e ≠ .removed id ∧ Live es id := by
  constructor
  · rintro ⟨newer, older, heq, hnot⟩
    cases newer with
    | nil => exact Or.inl (List.cons.inj heq).1
    | cons e' newer =>
      obtain ⟨rfl, rfl⟩ := List.cons.inj heq
      rw [List.mem_cons, not_or] at hnot
      exact Or.inr ⟨Ne.symm hnot.1, newer, older, rfl, hnot.2⟩
  · rintro (rfl | ⟨hne, newer, older, rfl, hnot⟩)
    · exact ⟨[], es, rfl, List.not_mem_nil⟩
    · refine ⟨e :: newer, older, rfl, ?_⟩
      rw [List.mem_cons, not_or]
      exact ⟨hne.symm, hnot⟩

/-- The labels in use are those that are live, the reserved one is not among them, and the settings
are kept. -/
structure InOrder (c : Config) (es : List Event) (s : Layout α) : Prop where
  unreserved : .pending ∉ s.ids
  size_le : s.size ≤ c.limits.capacity
  orientation : s.orientation = c.orientation
  mem_ids : ∀ id, id ∈ s.ids ↔ Live es id

variable {c : Config} {es : List Event} {s t : Layout α} {e : Event} {id first : PanelId}

/-- A refusal says nothing about the labels. -/
theorem InOrder.refused (h : InOrder c es s) (reason : Refusal) :
    InOrder c (.refused reason :: es) s := by
  refine ⟨h.unreserved, h.size_le, h.orientation, fun other => ?_⟩
  rw [h.mem_ids, live_cons]
  simp

/-! ### Runs -/

variable [Coordinate α]

/-- A call, with what it does to the labels and the layout that it leaves.  A split takes a
candidate and labels its pending panel.  The layout without panels can be left by a fresh start.
A refused call leaves the layout as it was. -/
inductive Call (c : Config) (s : Layout α) : Event → Layout α → Prop
  | split {cs : List (Layout α)} {next t : Layout α} {id : PanelId} (hcs : c.candidates s = .ok cs)
      (hnext : next ∈ cs) (ht : next.commit id = .ok t) : Call c s (.introduced id) t
  | removal {id : PanelId} {t : Layout α} (ht : s.remove id = .ok t) : Call c s (.removed id) t
  | restart {id : PanelId} (hs : s.panels = []) (hid : id ≠ .pending) :
      Call c s (.introduced id) (c.initial id)
  | noCandidates {e : Refusal} (he : c.candidates s = .error e) : Call c s (.refused e) s
  | splitRefused {cs : List (Layout α)} {next : Layout α} {id : PanelId} {e : Refusal}
      (hcs : c.candidates s = .ok cs) (hnext : next ∈ cs) (he : next.commit id = .error e) :
      Call c s (.refused e) s
  | removalRefused {id : PanelId} {e : Refusal} (he : s.remove id = .error e) :
      Call c s (.refused e) s

/-- The events of a run that starts with one panel, the last one first, and the layout after it. -/
inductive Run (c : Config) (first : PanelId) : List Event → Layout α → Prop
  | start : Run c first [.introduced first] (c.initial first)
  | call {es : List Event} {s : Layout α} {e : Event} {t : Layout α} (h : Run c first es s)
      (ht : c.Call s e t) : Run c first (e :: es) t

theorem capacity_pos (hc : c.limits.Roomy) : 1 ≤ c.limits.capacity := by
  have hcolumns : 0 < c.limits.columns.toNat := UInt32.pos_iff_ne_zero.2 hc.1
  have hrows : 0 < c.limits.rows.toNat := UInt32.pos_iff_ne_zero.2 hc.2
  exact Nat.mul_pos hcolumns hrows

/-- A start is in order if no label was live before it. -/
theorem inOrder_initial (hc : c.limits.Roomy) (hid : id ≠ .pending)
    (hes : ∀ other, ¬ Live es other) :
    InOrder c (.introduced id :: es) (c.initial id : Layout α) := by
  refine ⟨?_, capacity_pos hc, rfl, fun other => ?_⟩
  · exact fun h => hid (List.mem_singleton.1 h).symm
  · rw [live_cons, Event.introduced.injEq, or_iff_left fun h => hes other h.2, eq_comm]
    exact List.mem_singleton

theorem InOrder.split (h : InOrder c es s) {cs : List (Layout α)} {next : Layout α}
    (hcs : c.candidates s = .ok cs) (hnext : next ∈ cs) (ht : next.commit id = .ok t) :
    InOrder c (.introduced id :: es) t := by
  have hsuccessor : s.Successor c.limits id t := ⟨cs, hcs, next, hnext, ht⟩
  obtain ⟨p, cut, kept, created, hsplit⟩ := hsuccessor.exists_split
  have hids : ∀ other, other ∈ t.ids ↔ other = id ∨ other ∈ s.ids := fun other => by
    rw [hsplit.perm_ids.mem_iff, List.mem_cons]
  refine ⟨?_, ?_, hsplit.orientation.trans h.orientation, fun other => ?_⟩
  · rw [hids, not_or]
    exact ⟨(Layout.commit_eq_ok ht).1.symm, h.unreserved⟩
  · have hroom := Layout.size_lt_capacity hcs hnext
    have hlength := hsplit.perm_ids.length_eq
    rw [List.length_cons, Layout.length_ids, Layout.length_ids] at hlength
    omega
  · rw [hids, h.mem_ids, live_cons]
    simp [eq_comm]

theorem InOrder.removal (h : InOrder c es s) (ht : s.remove id = .ok t) :
    InOrder c (.removed id :: es) t := by
  obtain ⟨r, hfind⟩ : ∃ r, s.find? id = some r := by
    rw [← Option.ne_none_iff_exists']
    intro hnone
    rw [Layout.remove_of_find?_eq_none hnone] at ht
    cases ht
  have hp : (⟨id, r⟩ : Panel α) ∈ s.panels := Layout.find?_eq_some_iff.1 hfind
  obtain ⟨horientation, hperm⟩ := Layout.remove_eq_ok hp ht
  have hids : ∀ other, other ∈ t.ids ↔ other ∈ s.ids ∧ other ≠ id := fun other => by
    rw [hperm.mem_iff, Layout.mem_ids_erase]
  refine ⟨?_, ?_, horientation.trans h.orientation, fun other => ?_⟩
  · rw [hids]
    exact fun hmem => h.unreserved hmem.1
  · have hsize := Layout.size_erase hp
    have hlength := hperm.length_eq
    have hle := h.size_le
    rw [Layout.length_ids, Layout.length_ids] at hlength
    omega
  · rw [hids, h.mem_ids, live_cons]
    simp [and_comm, eq_comm]

/-- A call keeps the labels in order. -/
theorem InOrder.call (hc : c.limits.Roomy) (h : InOrder c es s) (ht : c.Call s e t) :
    InOrder c (e :: es) t := by
  cases ht with
  | split hcs hnext ht => exact h.split hcs hnext ht
  | removal ht => exact h.removal ht
  | restart hs hid =>
    refine inOrder_initial hc hid fun other hlive => ?_
    have hmem : other ∈ s.panels.map (·.id) := (h.mem_ids other).2 hlive
    rw [hs] at hmem
    cases hmem
  | noCandidates _ => exact h.refused _
  | splitRefused _ _ _ => exact h.refused _
  | removalRefused _ => exact h.refused _

theorem Run.inOrder (hc : c.limits.Roomy) (hfirst : first ≠ .pending) (h : c.Run first es s) :
    InOrder c es s := by
  induction h with
  | start =>
    refine inOrder_initial hc hfirst fun other => ?_
    rintro ⟨newer, older, heq, -⟩
    simp at heq
  | call _ ht ih => exact ih.call hc ht

/-- **Labels over whole runs.**  After every run within accepted settings the labels in use are
exactly those introduced and not removed since, without the reserved one and within the capacity,
and the orientation is that of the settings.  Asking for candidates is never refused; a candidate
takes every label but the reserved one and those in use; and a removal is refused only for an
unknown label, or among three panels or more for want of heirs. -/
theorem labels_of_run (hc : c.validated = .ok c) (hfirst : first ≠ .pending)
    (h : c.Run first es s) :
    InOrder c es s ∧
      (∃ cs, c.candidates s = .ok cs ∧ ∀ next ∈ cs, ∀ id,
        ((∃ t, next.commit id = .ok t) ↔ id ≠ .pending ∧ id ∉ s.ids) ∧
          (id = .pending → next.commit id = .error .reservedLabel) ∧
          (id ≠ .pending → id ∈ s.ids → next.commit id = .error (.duplicatePanel id))) ∧
      ∀ id, (s.remove id = .error (.unknownPanel id) ↔ id ∉ s.ids) ∧
        ∀ e, s.remove id = .error e →
          e = .unknownPanel id ∨ e = .noNeighbour id ∧ 3 ≤ s.size := by
  have hroomy : c.limits.Roomy := by
    by_contra hnot
    unfold validated at hc
    rw [if_neg fun h => hnot (complaints_eq_nil_iff.1 h)] at hc
    cases hc
  have hinOrder := h.inOrder hroomy hfirst
  obtain ⟨cs, hcs⟩ := Layout.exists_candidates hroomy hinOrder.unreserved hinOrder.size_le
  refine ⟨hinOrder, ⟨cs, hcs, fun next hnext => Layout.commit_of_mem_candidates hcs hnext⟩, ?_⟩
  refine fun id => ⟨⟨fun he => ?_, fun hid => ?_⟩, fun e he => ?_⟩
  · rcases Layout.remove_eq_error he with ⟨hid, -⟩ | ⟨-, -, heq⟩
    · exact hid
    · cases heq
  · exact Layout.remove_of_find?_eq_none (Layout.find?_eq_none_iff.2 hid)
  · rcases Layout.remove_eq_error he with ⟨-, heq⟩ | ⟨-, hsize, heq⟩
    · exact Or.inl heq
    · exact Or.inr ⟨heq, hsize⟩

/-- Two splits with a refused label between them, and the removal of the first panel. -/
def recorded : List Event :=
  [.removed ⟨1⟩, .introduced ⟨3⟩, .refused (.duplicatePanel ⟨1⟩), .introduced ⟨2⟩, .introduced ⟨1⟩]

theorem labels_of_run_rows :
    (standard.validated = .ok standard ∧ standard.Run ⟨1⟩ recorded Layout.rows) ∧
      InOrder standard recorded Layout.rows ∧ (∃ cs, standard.candidates Layout.rows = .ok cs) ∧
        Layout.rows.remove ⟨1⟩ = .error (.unknownPanel ⟨1⟩) := by
  have hvalid : standard.validated = .ok standard := by decide
  have hrun : standard.Run ⟨1⟩ recorded Layout.rows := by
    obtain ⟨cs, hcs, next, hnext, ht⟩ := Layout.successor_initial
    obtain ⟨cs', hcs', next', hnext', ht'⟩ := Layout.successor_columns
    have hrefused : next'.commit ⟨1⟩ = .error (.duplicatePanel ⟨1⟩) :=
      (Layout.commit_of_mem_candidates hcs' hnext' ⟨1⟩).2.2 (by decide) (by decide +kernel)
    refine .call (.call (.call (.call .start (.split hcs hnext ht)) ?_) (.split hcs' hnext' ht')) ?_
    · exact .splitRefused hcs' hnext' hrefused
    · exact .removal Layout.remove_columnAndHalves
  obtain ⟨hinOrder, ⟨cs, hcs, -⟩, hremove⟩ := labels_of_run hvalid (by decide) hrun
  exact ⟨⟨hvalid, hrun⟩, hinOrder, ⟨cs, hcs⟩, (hremove ⟨1⟩).1.2 (by decide +kernel)⟩

end Config

end Mosaic
