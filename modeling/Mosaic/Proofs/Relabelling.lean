import Mathlib.Logic.Equiv.Basic
import Mosaic.Proofs.Correspondence
import Mosaic.Proofs.HandleContents
import Mosaic.Proofs.Run
import Mosaic.Proofs.Sampling

/-!
# Labels are only labels

Everything goes through the panels in the order of their labels, and yet no result depends on more
than which labels are the same.  Another choice of labels, in whatever order, leads to the same
layouts under the other labels, the same counts, and handles at the same places.

* `Layout.relabel r`: the layout with other labels.
* `Layout.remove_relabel`: removals, since sums and lengths do not depend on an order.
* `Layout.perm_candidates_relabel`: candidates, up to their order.
* `Layout.perm_handles_relabel`: the handles of a layout that tiles the unit square, up to their
  order.
-/

namespace Mosaic

open Coordinate

/-! ### Other labels -/

section Relabel

variable {α : Type} {r : PanelId → PanelId}

/-- The same rectangle under another label. -/
def Panel.relabel (r : PanelId → PanelId) (p : Panel α) : Panel α :=
  ⟨r p.id, p.rect⟩

/-- The same reason with other labels. -/
def Refusal.relabel (r : PanelId → PanelId) : Refusal → Refusal
  | unknownPanel id => .unknownPanel (r id)
  | duplicatePanel id => .duplicatePanel (r id)
  | noNeighbour id => .noNeighbour (r id)
  | reservedLabel => .reservedLabel
  | noCapacity columns rows => .noCapacity columns rows
  | overCapacity panels capacity => .overCapacity panels capacity
  | stillPending => .stillPending
  | nothingPending => .nothingPending

/-- The same handle with other labels. -/
def Handle.relabel (r : PanelId → PanelId) (h : Handle α) : Handle α :=
  { h with panels := h.panels.map r }

namespace Layout

/-- The same layout with other labels. -/
def relabel (r : PanelId → PanelId) (s : Layout α) : Layout α :=
  (empty s.orientation).putAll (s.panels.map (Panel.relabel r))

variable {s t : Layout α} {p q : Panel α} {id : PanelId}

@[simp] theorem orientation_relabel (r : PanelId → PanelId) (s : Layout α) :
    (s.relabel r).orientation = s.orientation :=
  orientation_putAll _ _

theorem mem_relabel (hr : Function.Injective r) :
    q ∈ (s.relabel r).panels ↔ ∃ p ∈ s.panels, p.relabel r = q := by
  have hids : (s.panels.map (Panel.relabel r)).Pairwise (·.id ≠ ·.id) := by
    rw [List.pairwise_map]
    exact s.ascending.imp fun hlt heq => PanelId.ne_of_lt hlt (hr heq)
  unfold relabel
  rw [mem_putAll hids, List.mem_map]
  exact or_iff_left fun h => nomatch h.1

theorem relabel_mem (hr : Function.Injective r) (hp : p ∈ s.panels) :
    p.relabel r ∈ (s.relabel r).panels :=
  (mem_relabel hr).2 ⟨p, hp, rfl⟩

theorem perm_relabel (hr : Function.Injective r) (s : Layout α) :
    (s.relabel r).panels.Perm (s.panels.map (Panel.relabel r)) := by
  refine (List.perm_ext_iff_of_nodup (nodup_panels _) ?_).2 fun q => ?_
  · refine List.pairwise_map.2 (s.ascending.imp fun hlt heq => ?_)
    exact PanelId.ne_of_lt hlt (hr (congrArg Panel.id heq))
  · rw [mem_relabel hr, List.mem_map]

theorem find?_relabel (hr : Function.Injective r) (s : Layout α) (id : PanelId) :
    (s.relabel r).find? (r id) = s.find? id := by
  ext rect
  rw [find?_eq_some_iff, find?_eq_some_iff, mem_relabel hr]
  constructor
  · rintro ⟨p, hp, heq⟩
    obtain ⟨hid, rfl⟩ := Panel.mk.inj heq
    obtain rfl := hr hid
    exact hp
  · exact fun h => ⟨_, h, rfl⟩

theorem size_relabel (hr : Function.Injective r) (s : Layout α) : (s.relabel r).size = s.size := by
  unfold size
  rw [(perm_relabel hr s).length_eq, List.length_map]

theorem relabel_put (hr : Function.Injective r) (s : Layout α) (p : Panel α) :
    (s.put p).relabel r = (s.relabel r).put (p.relabel r) := by
  refine ext_mem (by simp) fun q => ?_
  rw [mem_relabel hr, mem_put, mem_relabel hr]
  constructor
  · rintro ⟨q, hq, rfl⟩
    rcases mem_put.1 hq with rfl | ⟨hq, hne⟩
    · exact Or.inl rfl
    · exact Or.inr ⟨⟨q, hq, rfl⟩, hr.ne hne⟩
  · rintro (rfl | ⟨⟨q, hq, rfl⟩, hne⟩)
    · exact ⟨p, mem_put.2 (Or.inl rfl), rfl⟩
    · exact ⟨q, mem_put.2 (Or.inr ⟨hq, fun heq => hne (congrArg r heq)⟩), rfl⟩

theorem relabel_putAll (hr : Function.Injective r) (s : Layout α) (ps : List (Panel α)) :
    (s.putAll ps).relabel r = (s.relabel r).putAll (ps.map (Panel.relabel r)) := by
  unfold putAll
  induction ps generalizing s with
  | nil => rfl
  | cons p ps ih => rw [List.map_cons, List.foldl_cons, List.foldl_cons, ih, relabel_put hr]

/-- Panels with different labels can be set in any order. -/
theorem putAll_perm {ps qs : List (Panel α)} (h : ps.Perm qs) (hids : ps.Pairwise (·.id ≠ ·.id)) :
    s.putAll ps = s.putAll qs := by
  have hids' : qs.Pairwise (·.id ≠ ·.id) := (h.pairwise_iff fun hne => hne.symm).1 hids
  refine ext_mem (by simp) fun q => ?_
  rw [mem_putAll hids, mem_putAll hids', h.mem_iff]
  simp only [h.mem_iff]

theorem relabel_erase (hr : Function.Injective r) (s : Layout α) (id : PanelId) :
    (s.erase id).relabel r = (s.relabel r).erase (r id) := by
  refine ext_mem (by simp) fun q => ?_
  rw [mem_relabel hr, mem_erase, mem_relabel hr]
  constructor
  · rintro ⟨q, hq, rfl⟩
    obtain ⟨hq, hne⟩ := mem_erase.1 hq
    exact ⟨⟨q, hq, rfl⟩, hr.ne hne⟩
  · rintro ⟨⟨q, hq, rfl⟩, hne⟩
    exact ⟨q, mem_erase.2 ⟨hq, fun heq => hne (congrArg r heq)⟩, rfl⟩

theorem relabel_single [Coordinate α] (hr : Function.Injective r) (id : PanelId) (o : Orientation) :
    (single id o : Layout α).relabel r = single (r id) o :=
  relabel_put hr _ _

end Layout

end Relabel

/-! ### Removals -/

variable {r : PanelId → PanelId}

namespace Flank

/-- The flank has the same panels with other labels, in some order. -/
structure Relabels (r : PanelId → PanelId) (f g : Flank ℚ) : Prop where
  boundary : g.boundary = f.boundary
  side : g.side = f.side
  perm : g.panels.Perm (f.panels.map (Panel.relabel r))

namespace Relabels

variable {f g f' g' : Flank ℚ} {removed : Rect ℚ}

theorem length_eq (h : Relabels r f g) : g.panels.length = f.panels.length := by
  rw [h.perm.length_eq, List.length_map]

theorem area_eq (h : Relabels r f g) : g.area = f.area := by
  unfold area
  rw [sum_eq_list_sum, sum_eq_list_sum, (h.perm.map _).sum_eq, List.map_map]
  rfl

theorem covered_eq (h : Relabels r f g) : g.covered = f.covered := by
  unfold covered
  rw [h.boundary, sum_eq_list_sum, sum_eq_list_sum, (h.perm.map _).sum_eq, List.map_map]
  rfl

theorem usable_iff (h : Relabels r f g) : f.Usable removed ↔ g.Usable removed := by
  unfold Usable
  rw [h.covered_eq, h.boundary, ← List.length_pos_iff, ← List.length_pos_iff, h.length_eq]

theorem isTwin_iff (h : Relabels r f g) : f.IsTwin removed ↔ g.IsTwin removed := by
  have hperm := h.perm
  have hlength := h.length_eq
  unfold IsTwin
  rw [h.boundary]
  match hf : f.panels, hg : g.panels with
  | [], [] => rfl
  | [p], [q] =>
    rw [hf, hg, List.map_singleton, List.singleton_perm_singleton] at hperm
    rw [hperm]
    rfl
  | _ :: _ :: _, _ :: _ :: _ => rfl
  | [], _ :: _ => simp [hf, hg] at hlength
  | _ :: _, [] => simp [hf, hg] at hlength
  | [_], _ :: _ :: _ => simp [hf, hg] at hlength
  | _ :: _ :: _, [_] => simp [hf, hg] at hlength

theorem compare_eq (h : Relabels r f g) (h' : Relabels r f' g') :
    f.compare f' = g.compare g' := by
  unfold compare
  rw [h.length_eq, h'.length_eq, h.area_eq, h'.area_eq, h.side, h'.side]

end Relabels

end Flank

namespace Layout

variable {s : Layout ℚ} {p q : Panel ℚ} {id : PanelId} {limits : Limits}

theorem flanksMatch_relabel (hr : Function.Injective r) (rest : Layout ℚ) (p : Panel ℚ) :
    FlanksMatch (Flank.Relabels r) (fun b => b) rest p (rest.relabel r) (p.relabel r) where
  orientation := orientation_relabel r rest
  flip _ := rfl
  flank b side := by
    refine ⟨rfl, rfl, ?_⟩
    rw [flank_panels, flank_panels]
    refine ((perm_relabel hr rest).filter _).trans (List.Perm.of_eq ?_)
    rw [List.filter_map]
    refine congrArg _ (List.filter_congr fun q _ => ?_)
    rw [Function.comp_apply, decide_eq_decide]
    exact and_congr_left fun _ => hr.ne_iff
  usable _ _ h := h.usable_iff
  isTwin _ _ h _ := h.isTwin_iff
  compare _ _ _ _ h h' _ _ := h.compare_eq h'

theorem relabel_handOver (hr : Function.Injective r) {rest : Layout ℚ} {removed : Rect ℚ}
    {f g : Flank ℚ} (hids : f.panels.Pairwise (·.id ≠ ·.id)) (h : f.Relabels r g) :
    (rest.handOver removed f).relabel r = (rest.relabel r).handOver removed g := by
  unfold handOver
  rw [relabel_putAll hr, List.map_map, h.boundary]
  refine (putAll_perm (s := rest.relabel r) ?_ ?_)
  · refine (List.Perm.of_eq ?_).trans (h.perm.map _).symm
    rw [List.map_map]
    rfl
  · rw [List.pairwise_map]
    exact hids.imp fun hne heq => hne (hr heq)

/-- The panels of the heirs have different labels. -/
theorem pairwise_of_heirs? {rest : Layout ℚ} {f : Flank ℚ} (h : rest.heirs? p = some f) :
    f.panels.Pairwise (·.id ≠ ·.id) := by
  obtain ⟨b, side, rfl, -⟩ := exists_of_heirs? h
  rw [flank_panels]
  exact (rest.ascending.imp PanelId.ne_of_lt).filter _

/-- **Removals do not depend on the labels.** -/
theorem remove_relabel (hr : Function.Injective r) (s : Layout ℚ) (id : PanelId) :
    (s.relabel r).remove (r id) =
      ((s.remove id).mapError (Refusal.relabel r)).map (relabel r) := by
  cases hfind : s.find? id with
  | none =>
    rw [remove_of_find?_eq_none hfind,
      remove_of_find?_eq_none ((find?_relabel hr s id).trans hfind)]
    rfl
  | some removed =>
    have hp := find?_eq_some_iff.1 hfind
    have heq := remove_eq hp
    have heq' := remove_eq (relabel_mem hr hp)
    have hperm := perm_relabel hr (s.erase id)
    have hlength := hperm.length_eq
    have hheirs := (flanksMatch_relabel hr (s.erase id) ⟨id, removed⟩).heirs?
    dsimp only [Panel.relabel] at heq heq' hheirs
    rw [List.length_map] at hlength
    rw [← relabel_erase hr] at heq'
    rw [heq, heq', orientation_relabel]
    match hrest : (s.erase id).panels, hrest' : ((s.erase id).relabel r).panels with
    | [], [] => rfl
    | [survivor], [survivor'] =>
      rw [hrest, hrest', List.map_singleton, List.singleton_perm_singleton] at hperm
      rw [hperm]
      exact congrArg Except.ok (relabel_single hr survivor.id s.orientation).symm
    | _ :: _ :: _, _ :: _ :: _ =>
      generalize hf : (s.erase id).heirs? ⟨id, removed⟩ = heirs,
        ((s.erase id).relabel r).heirs? ⟨r id, removed⟩ = heirs' at hheirs ⊢
      cases hheirs with
      | none => rfl
      | some h => exact congrArg Except.ok (relabel_handOver hr (pairwise_of_heirs? hf) h.2).symm
    | [], _ :: _ => simp [hrest, hrest'] at hlength
    | _ :: _, [] => simp [hrest, hrest'] at hlength
    | [_], _ :: _ :: _ => simp [hrest, hrest'] at hlength
    | _ :: _ :: _, [_] => simp [hrest, hrest'] at hlength

end Layout

/-! ### Counts -/

/-- The samples of a span do not depend on the order of the others. -/
theorem Span.samples_perm {s : Span ℚ} {others others' : List (Span ℚ)} (h : others.Perm others') :
    s.samples others = s.samples others' := by
  have hedges : (s.edgesWithin others).Perm (s.edgesWithin others') :=
    (((h.flatMap_right _).filter _).cons _).cons _
  have hsorted : (s.edgesWithin others).mergeSort Coordinate.precedes =
      (s.edgesWithin others').mergeSort Coordinate.precedes := by
    refine List.Perm.eq_of_pairwise (fun _ _ _ _ => le_antisymm) (pairwise_mergeSort_precedes _)
      (pairwise_mergeSort_precedes _) ?_
    exact (List.mergeSort_perm _ _).trans (hedges.trans (List.mergeSort_perm _ _).symm)
  unfold edgesWithin at hsorted
  simp only [samples, hsorted]

namespace Layout

variable {limits : Limits} {cs : List (Layout ℚ)} {e : Refusal}

/-- **The number of panels in a band does not depend on the labels.** -/
theorem bandCount_relabel (hr : Function.Injective r) (s : Layout ℚ) (line : Orientation)
    (p : Panel ℚ) : (s.relabel r).bandCount line (p.relabel r) = s.bandCount line p := by
  unfold bandCount
  rw [(perm_relabel hr s).countP_eq, List.countP_map]
  rfl

theorem crossedAt_relabel (hr : Function.Injective r) (s : Layout ℚ) (line : Orientation)
    (x : ℚ) : (s.relabel r).crossedAt line x = s.crossedAt line x := by
  unfold crossedAt
  rw [(perm_relabel hr s).countP_eq, List.countP_map]
  rfl

theorem crossings_relabel (hr : Function.Injective r) (s : Layout ℚ) (line : Orientation)
    (rect : Rect ℚ) : (s.relabel r).crossings line rect = s.crossings line rect := by
  have hspans : ((s.relabel r).panels.map (·.rect.along line.flip)).Perm
      (s.panels.map (·.rect.along line.flip)) := by
    refine ((perm_relabel hr s).map _).trans (List.Perm.of_eq ?_)
    rw [List.map_map]
    rfl
  unfold crossings
  rw [Span.samples_perm hspans, funext (crossedAt_relabel hr s line)]

theorem admits_relabel (hr : Function.Injective r) {s : Layout ℚ} {p : Panel ℚ}
    {cut : Orientation} : (s.relabel r).Admits limits (p.relabel r) cut ↔ s.Admits limits p cut := by
  unfold Admits occupancy
  rw [bandCount_relabel hr]
  dsimp only [Panel.relabel]
  rw [crossings_relabel hr]

/-! ### Candidates -/

theorem relabel_withHalves (hr : Function.Injective r) (hpending : r .pending = .pending)
    (s : Layout ℚ) (id : PanelId) (kept created : Rect ℚ) :
    (s.withHalves id kept created).relabel r = (s.relabel r).withHalves (r id) kept created := by
  unfold withHalves
  rw [relabel_putAll hr]
  unfold Panel.relabel
  rw [List.map_cons, List.map_singleton, hpending]

theorem halvings_relabel (hr : Function.Injective r) (hpending : r .pending = .pending)
    (s : Layout ℚ) (p : Panel ℚ) (cut : Orientation) :
    (s.relabel r).halvings (p.relabel r) cut = (s.halvings p cut).map (relabel r) := by
  obtain ⟨id, rect⟩ := p
  change (s.relabel r).halvings ⟨r id, rect⟩ cut = _
  unfold halvings
  rcases rect.split cut with ⟨first, second⟩
  dsimp only
  rw [List.map_cons, relabel_withHalves hr hpending]
  split
  · rfl
  · rw [List.map_singleton, relabel_withHalves hr hpending]

theorem candidatesAt_relabel (hr : Function.Injective r) (hpending : r .pending = .pending)
    (s : Layout ℚ) (limits : Limits) (p : Panel ℚ) :
    (s.relabel r).candidatesAt limits (p.relabel r) =
      (s.candidatesAt limits p).map (relabel r) := by
  unfold candidatesAt
  rw [List.map_flatMap, funext (halvings_relabel hr hpending s p)]
  simp only [admits_relabel hr]

/-- Layouts of one size, both with or both without a pending panel, are refused for the same reason,
are both full, or both have the halvings of their panels. -/
theorem candidates_cases {s t : Layout ℚ} (hcontains : t.contains .pending = s.contains .pending)
    (hsize : t.size = s.size) (limits : Limits) :
    (∃ e, s.candidates limits = .error e ∧ t.candidates limits = .error e) ∨
      (s.candidates limits = .ok [] ∧ t.candidates limits = .ok []) ∨
      (s.candidates limits = .ok (s.panels.flatMap (s.candidatesAt limits)) ∧
        t.candidates limits = .ok (t.panels.flatMap (t.candidatesAt limits))) := by
  unfold candidates
  rw [hcontains, hsize]
  by_cases hroomy : ¬ limits.Roomy
  · exact Or.inl ⟨_, if_pos hroomy, if_pos hroomy⟩
  rw [if_neg hroomy, if_neg hroomy]
  by_cases hpending : s.contains .pending
  · exact Or.inl ⟨_, if_pos hpending, if_pos hpending⟩
  rw [if_neg hpending, if_neg hpending]
  by_cases hover : limits.capacity < s.size
  · exact Or.inl ⟨_, if_pos hover, if_pos hover⟩
  rw [if_neg hover, if_neg hover]
  by_cases hfull : s.size = limits.capacity
  · exact Or.inr (Or.inl ⟨if_pos hfull, if_pos hfull⟩)
  · exact Or.inr (Or.inr ⟨if_neg hfull, if_neg hfull⟩)

/-- **Candidates do not depend on the labels**, except for their order: the layouts with other labels
are refused for the same reason or have the same candidates under the other labels, each as often. -/
theorem perm_candidates_relabel (hr : Function.Injective r) (hpending : r .pending = .pending)
    (s : Layout ℚ) (limits : Limits) :
    (∀ e, s.candidates limits = .error e → (s.relabel r).candidates limits = .error e) ∧
      ∀ cs, s.candidates limits = .ok cs →
        ∃ cs', (s.relabel r).candidates limits = .ok cs' ∧ cs'.Perm (cs.map (relabel r)) := by
  have hcontains : (s.relabel r).contains .pending = s.contains .pending := by
    unfold contains
    rw [← find?_relabel hr s, hpending]
  have hperm : ((s.relabel r).panels.flatMap ((s.relabel r).candidatesAt limits)).Perm
      ((s.panels.flatMap (s.candidatesAt limits)).map (relabel r)) := by
    refine ((perm_relabel hr s).flatMap_right _).trans (List.Perm.of_eq ?_)
    rw [List.flatMap_map, List.map_flatMap]
    exact List.flatMap_congr fun p _ => candidatesAt_relabel hr hpending s limits p
  rcases candidates_cases hcontains (size_relabel hr s) limits with
    ⟨e, he, he'⟩ | ⟨hs, ht⟩ | ⟨hs, ht⟩
  · rw [he, he']
    exact ⟨fun _ h => h, nofun⟩
  · rw [hs, ht]
    refine ⟨nofun, fun cs hcs => ⟨[], rfl, ?_⟩⟩
    obtain rfl := Except.ok.inj hcs
    exact List.Perm.nil
  · rw [hs, ht]
    refine ⟨nofun, fun cs hcs => ⟨_, rfl, ?_⟩⟩
    obtain rfl := Except.ok.inj hcs
    exact hperm

end Layout

/-! ### Handles -/

theorem Panel.relabel_injective {α : Type} (hr : Function.Injective r) :
    Function.Injective (Panel.relabel r : Panel α → Panel α) := by
  intro p q h
  obtain ⟨hid, hrect⟩ := Panel.mk.inj h
  cases p
  cases q
  exact congrArg₂ Panel.mk (hr hid) hrect

/-- Handles at the same place and connected to the same panels have the same contents. -/
theorem Handle.contents_eq_of_mem_iff {h k : Handle ℚ} (hb : k.boundary = h.boundary)
    (hposition : k.position = h.position)
    (hpanels : ∀ id, id ∈ k.panels ↔ ∃ id' ∈ h.panels, r id' = id) :
    k.contents = (h.relabel r).contents := by
  refine Prod.ext hb (Prod.ext hposition (Finset.ext fun id => ?_))
  change id ∈ k.panels.toFinset ↔ id ∈ (h.panels.map r).toFinset
  rw [List.mem_toFinset, List.mem_toFinset, List.mem_map, hpanels]

namespace Layout

variable {s : Layout ℚ} {p q : Panel ℚ} {b : Orientation} {side : Side} {id : PanelId}
  {workspace : Orientation}

theorem onMesh_relabel (hr : Function.Injective r) (hm : s.OnMesh) : (s.relabel r).OnMesh := by
  intro q hq
  obtain ⟨p, hp, rfl⟩ := (mem_relabel hr).1 hq
  exact hm p hp

theorem perfect_relabel (hr : Function.Injective r) (hs : s.Perfect) : (s.relabel r).Perfect := by
  obtain ⟨hpos, hin, hapart, harea⟩ := (perfect_iff_of_perm (List.Perm.refl _)).1 hs
  refine (perfect_iff_of_perm (perm_relabel hr s)).2
    ⟨List.forall_mem_map.2 hpos, List.forall_mem_map.2 hin, List.pairwise_map.2 hapart, ?_⟩
  rwa [List.map_map]

theorem abuts_relabel_iff (hr : Function.Injective r) {p' q' : Panel ℚ} :
    (s.relabel r).Abuts p' q' b side ↔
      ∃ p q, s.Abuts p q b side ∧ p.relabel r = p' ∧ q.relabel r = q' := by
  constructor
  · intro h
    obtain ⟨p, hp, rfl⟩ := (mem_relabel hr).1 h.left
    obtain ⟨q, hq, rfl⟩ := (mem_relabel hr).1 h.right
    exact ⟨p, q, ⟨⟨hp, hq, h.borders⟩, h.includes⟩, rfl, rfl⟩
  · rintro ⟨p, q, h, rfl, rfl⟩
    exact ⟨⟨relabel_mem hr h.left, relabel_mem hr h.right, h.borders⟩, h.includes⟩

theorem joined_relabel_iff (hr : Function.Injective r) :
    (s.relabel r).Joined (p.relabel r) b side id ↔ ∃ id', s.Joined p b side id' ∧ r id' = id := by
  unfold Joined
  constructor
  · rintro (rfl | ⟨k', hk', rfl⟩)
    · exact ⟨p.id, Or.inl rfl, rfl⟩
    · obtain ⟨p₁, k, hk, heq, rfl⟩ := (abuts_relabel_iff hr).1 hk'
      obtain rfl := Panel.relabel_injective hr heq
      exact ⟨k.id, Or.inr ⟨k, hk, rfl⟩, rfl⟩
  · rintro ⟨id', rfl | ⟨k, hk, rfl⟩, rfl⟩
    · exact Or.inl rfl
    · exact Or.inr ⟨k.relabel r, (abuts_relabel_iff hr).2 ⟨p, k, hk, rfl, rfl⟩, rfl⟩

theorem connected_relabel_iff (hr : Function.Injective r) :
    (s.relabel r).Connected workspace (p.relabel r) b side id ↔
      ∃ id', s.Connected workspace p b side id' ∧ r id' = id := by
  unfold Connected
  split
  · constructor
    · rintro ⟨p', q', side', habuts', hedge, hjoined'⟩
      obtain ⟨p₁, q₁, habuts, rfl, rfl⟩ := (abuts_relabel_iff hr).1 habuts'
      obtain ⟨id', hjoined, rfl⟩ := (joined_relabel_iff hr).1 hjoined'
      exact ⟨id', ⟨p₁, q₁, side', habuts, hedge, hjoined⟩, rfl⟩
    · rintro ⟨id', ⟨p₁, q₁, side', habuts, hedge, hjoined⟩, rfl⟩
      exact ⟨p₁.relabel r, q₁.relabel r, side', (abuts_relabel_iff hr).2 ⟨p₁, q₁, habuts, rfl, rfl⟩,
        hedge, (joined_relabel_iff hr).2 ⟨id', hjoined, rfl⟩⟩
  · exact joined_relabel_iff hr

/-- **Handles do not depend on the labels**, except for their order. -/
theorem perm_handles_relabel (hr : Function.Injective r) (hs : s.Perfect) (hm : s.OnMesh)
    (workspace : Orientation) :
    (((s.relabel r).handles workspace).map Handle.contents).Perm
      ((s.handles workspace).map fun h => (h.relabel r).contents) := by
  have hs' := perfect_relabel hr hs
  have hm' := onMesh_relabel hr hm
  have hplace : ∀ {h k : Handle ℚ}, h.contents = k.contents →
      (h.boundary, h.position) = (k.boundary, k.position) := fun heq => by
    obtain ⟨hb, hrest⟩ := Prod.mk.inj heq
    exact Prod.ext hb (Prod.mk.inj hrest).1
  refine (List.perm_ext_iff_of_nodup ?_ ?_).2 fun c => ?_
  · exact List.pairwise_map.2 ((pairwise_handles_ne _ _).imp fun hne heq => hne (hplace heq))
  · refine List.pairwise_map.2 ((pairwise_handles_ne _ _).imp fun hne heq => ?_)
    have hsame := hplace heq
    exact hne hsame
  rw [List.mem_map, List.mem_map]
  constructor
  · rintro ⟨k, hk, rfl⟩
    obtain ⟨p', q', side, habuts', hposition, hpanels⟩ := hs'.connected_of_mem_handles hm' hk
    obtain ⟨p, q, habuts, rfl, rfl⟩ := (abuts_relabel_iff hr).1 habuts'
    obtain ⟨h, hh, hhb, hhposition, hhpanels⟩ := hs.exists_mem_handles_connected hm habuts workspace
    refine ⟨h, hh, (Handle.contents_eq_of_mem_iff hhb.symm (hposition.trans hhposition.symm)
      fun id => ?_).symm⟩
    rw [hpanels, connected_relabel_iff hr]
    simp only [hhpanels]
  · rintro ⟨h, hh, rfl⟩
    obtain ⟨p, q, side, habuts, hposition, hpanels⟩ := hs.connected_of_mem_handles hm hh
    obtain ⟨k, hk, hkb, hkposition, hkpanels⟩ := hs'.exists_mem_handles_connected hm'
      ((abuts_relabel_iff hr).2 ⟨p, q, habuts, rfl, rfl⟩) workspace
    refine ⟨k, hk, Handle.contents_eq_of_mem_iff hkb (hkposition.trans hposition.symm)
      fun id => ?_⟩
    rw [hkpanels, connected_relabel_iff hr]
    simp only [hpanels]

/-! ### All operations -/

/-- **Labels are only labels.**  Other labels for the panels of a layout that tiles the unit square,
in whatever order, lead to the same removals, candidates, counts and handles under the other
labels. -/
theorem relabel_operations (hr : Function.Injective r) (hpending : r .pending = .pending)
    (hs : s.Tiles) (hm : s.OnMesh) :
    (∀ id, (s.relabel r).remove (r id) =
      ((s.remove id).mapError (Refusal.relabel r)).map (relabel r)) ∧
      (∀ limits, (∀ e, s.candidates limits = .error e → (s.relabel r).candidates limits = .error e) ∧
        ∀ cs, s.candidates limits = .ok cs →
          ∃ cs', (s.relabel r).candidates limits = .ok cs' ∧ cs'.Perm (cs.map (relabel r))) ∧
      (∀ line p, (s.relabel r).bandCount line (p.relabel r) = s.bandCount line p) ∧
      ∀ workspace, (((s.relabel r).handles workspace).map Handle.contents).Perm
        ((s.handles workspace).map fun h => (h.relabel r).contents) :=
  ⟨s.remove_relabel hr, s.perm_candidates_relabel hr hpending, s.bandCount_relabel hr,
    perm_handles_relabel hr (tiles_iff_perfect.1 hs) hm⟩

/-- The labels of the first and the last of three panels exchanged. -/
def exchange : PanelId → PanelId :=
  Equiv.swap ⟨1⟩ ⟨3⟩

/-- A column and two halves with the order of their labels reversed: the column is removed under its
other label, and the handles are at the same places. -/
theorem relabel_operations_columnAndHalves :
    Function.Injective exchange ∧ exchange .pending = .pending ∧ columnAndHalves.Tiles ∧
      columnAndHalves.OnMesh ∧
      (columnAndHalves.relabel exchange).remove ⟨3⟩ = .ok (rows.relabel exchange) ∧
      (((columnAndHalves.relabel exchange).handles .horizontal).map Handle.contents).Perm
        ((columnAndHalves.handles .horizontal).map fun h => (h.relabel exchange).contents) := by
  have hinjective : Function.Injective exchange := (Equiv.swap _ _).injective
  have hpending : exchange .pending = .pending := by decide
  have htiles : columnAndHalves.Tiles := by decide +kernel
  have hmesh : columnAndHalves.OnMesh := by decide +kernel
  obtain ⟨hremove, -, -, hhandles⟩ := relabel_operations hinjective hpending htiles hmesh
  refine ⟨hinjective, hpending, htiles, hmesh, ?_, hhandles _⟩
  have hcolumn := hremove ⟨1⟩
  rw [remove_columnAndHalves] at hcolumn
  exact hcolumn

end Layout

end Mosaic
