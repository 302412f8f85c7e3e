import Mosaic.Proofs.Split

/-!
# Removals

The neighbours along a flush side have no stretch in common and their extents add up to the side, so
growing over the removed panel they fill its place exactly.  A removal therefore keeps a layout on
the mesh perfect, whichever flank it picks.

* `Rect.Borders.edge_growOver`: a neighbour grows up to the opposite side of the removed panel.
* `Layout.Perfect.remove`: a removal leaves the layout without panels or a perfect one.
* `Layout.Perfect.remove_ok_or_refused`: what holds when a removal is refused.
-/

namespace Mosaic

open Coordinate

/-! ### Growing over a neighbour -/

/-- What meets the union of two consecutive spans meets one of them. -/
theorem Span.Meets.of_consecutive {s t u v : Span ℚ} (h : u.Meets v) (hv : v.Positive)
    (hst : s.stop = t.start) (hstart : u.start = s.start) (hstop : u.stop = t.stop) :
    s.Meets v ∨ t.Meets v := by
  have hpos := Span.start_lt_stop hv
  rcases lt_or_ge v.start s.stop with hlt | hge
  · exact Or.inl ⟨hstart ▸ h.1, hlt⟩
  · exact Or.inr ⟨hst ▸ hge.trans_lt hpos, hstop ▸ h.2⟩

namespace Rect

variable {r q k : Rect ℚ} {b : Orientation} {side : Side}

theorem along_flip_growOver (q r : Rect ℚ) (b : Orientation) :
    (q.growOver r b).along b.flip =
      ⟨min (q.along b.flip).start (r.along b.flip).start,
        (q.along b.flip).extent + (r.along b.flip).extent⟩ := by
  simp [growOver, least_eq_min]

theorem extent_growOver (q r : Rect ℚ) (b : Orientation) :
    ((q.growOver r b).along b.flip).extent =
      (q.along b.flip).extent + (r.along b.flip).extent := by
  rw [along_flip_growOver]

/-- The grown neighbour keeps its far edge and reaches the opposite side of the rectangle. -/
theorem Borders.edge_growOver (h : r.Borders q b side) (hr : (r.along b.flip).Positive)
    (hq : (q.along b.flip).Positive) :
    (q.growOver r b).edge b side = q.edge b side ∧
      (q.growOver r b).edge b side.flip = r.edge b side.flip := by
  have hrlt := Span.start_lt_stop hr
  have hqlt := Span.start_lt_stop hq
  unfold edge
  rw [along_flip_growOver]
  cases side with
  | before =>
    have hmeet : (q.along b.flip).stop = (r.along b.flip).start := h.1
    simp only [Span.bound, Side.flip_before, Span.stop_eq]
    rw [min_eq_left (by linarith), ← hmeet, Span.stop_eq]
    exact ⟨rfl, by ring⟩
  | after =>
    have hmeet : (q.along b.flip).start = (r.along b.flip).stop := h.1
    simp only [Span.bound, Side.flip_after, Span.stop_eq]
    rw [min_eq_right (by linarith), hmeet, Span.stop_eq]
    exact ⟨by ring, rfl⟩

/-- Across the boundary the grown neighbour spans both rectangles. -/
theorem Borders.meets_of_growOver (h : r.Borders q b side) (hr : (r.along b.flip).Positive)
    (hq : (q.along b.flip).Positive) {v : Span ℚ} (hv : v.Positive)
    (hmeets : ((q.growOver r b).along b.flip).Meets v) :
    (q.along b.flip).Meets v ∨ (r.along b.flip).Meets v := by
  obtain ⟨hfar, hnear⟩ := h.edge_growOver hr hq
  cases side with
  | before => exact hmeets.of_consecutive hv h.1 hfar hnear
  | after => exact (hmeets.of_consecutive hv h.1.symm hnear hfar).symm

/-- A rectangle apart from both is apart from the grown one. -/
theorem Borders.apart_growOver (h : r.Borders q b side) (hin : (r.along b).Includes (q.along b))
    (hr : (r.along b.flip).Positive) (hq : (q.along b.flip).Positive)
    (hk : (k.along b.flip).Positive) (hqk : q.Apart k) (hrk : r.Apart k) :
    (q.growOver r b).Apart k := by
  rw [apart_iff b, along_growOver]
  by_contra hboth
  rw [not_or, not_not, not_not] at hboth
  obtain ⟨halong, hacross⟩ := hboth
  rcases h.meets_of_growOver hr hq hk hacross with hmeets | hmeets
  · exact ((apart_iff b).1 hqk).elim (· halong) (· hmeets)
  · exact ((apart_iff b).1 hrk).elim (· (halong.symm.mono hin).symm) (· hmeets)

theorem area_growOver (q r : Rect ℚ) (b : Orientation) :
    (q.growOver r b).area = q.area + (q.along b).extent * (r.along b.flip).extent := by
  rw [area_eq _ b, area_eq q b, along_growOver, extent_growOver]
  ring

theorem positive_growOver (hr : ∀ o, (r.along o).Positive) (hq : ∀ o, (q.along o).Positive)
    (o : Orientation) : ((q.growOver r b).along o).Positive := by
  rcases Orientation.eq_or_eq_flip b o with rfl | rfl
  · rw [along_growOver]
    exact hq _
  · show 0 < _
    rw [extent_growOver]
    exact add_pos (hq _) (hr _)

theorem Borders.within_growOver (h : r.Borders q b side) (hr : ∀ o, (r.along o).Positive)
    (hq : ∀ o, (q.along o).Positive)
    (hrin : ∀ o, 0 ≤ (r.along o).start ∧ (r.along o).stop ≤ 1)
    (hqin : ∀ o, 0 ≤ (q.along o).start ∧ (q.along o).stop ≤ 1) (o : Orientation) :
    0 ≤ ((q.growOver r b).along o).start ∧ ((q.growOver r b).along o).stop ≤ 1 := by
  rcases Orientation.eq_or_eq_flip b o with rfl | rfl
  · rw [along_growOver]
    exact hqin _
  · obtain ⟨hfar, hnear⟩ := h.edge_growOver (hr _) (hq _)
    cases side with
    | before =>
      exact ⟨(hqin _).1.trans hfar.ge, hnear.le.trans (hrin _).2⟩
    | after =>
      exact ⟨(hrin _).1.trans hnear.ge, hfar.le.trans (hqin _).2⟩

end Rect

/-! ### Removals keep layouts perfect -/

namespace Layout

variable {s t : Layout ℚ} {p q : Panel ℚ} {b : Orientation} {side : Side} {id : PanelId}

/-- The panels that are not in a flank. -/
def others (s : Layout ℚ) (p : Panel ℚ) (b : Orientation) (side : Side) : List (Panel ℚ) :=
  (s.erase p.id).panels.filter fun q =>
    !decide (q.id ≠ p.id ∧ p.rect.sideTouched q.rect b = some side)

theorem perm_flank (hp : p ∈ s.panels) (b : Orientation) (side : Side) :
    s.panels.Perm (p :: (((s.erase p.id).flank p b side).panels ++ s.others p b side)) := by
  refine (perm_cons_erase hp).trans (List.Perm.cons p ?_)
  rw [flank_panels]
  exact (List.filter_append_perm _ _).symm

theorem perm_handOver_flank (s : Layout ℚ) (p : Panel ℚ) (b : Orientation) (side : Side) :
    ((s.erase p.id).handOver p.rect ((s.erase p.id).flank p b side)).panels.Perm
      (((s.erase p.id).flank p b side).panels.map (fun q => ⟨q.id, q.rect.growOver p.rect b⟩) ++
        s.others p b side) :=
  perm_handOver _ _ (flank_panels _ _ _ _)

theorem mem_others (hp : p ∈ s.panels) :
    q ∈ s.others p b side ↔
      q ∈ s.panels ∧ q ≠ p ∧ q ∉ ((s.erase p.id).flank p b side).panels := by
  unfold others
  rw [mem_flank, List.mem_filter, mem_erase]
  constructor
  · rintro ⟨⟨hq, hid⟩, hnot⟩
    simp only [Bool.not_eq_eq_eq_not, Bool.not_true, decide_eq_false_iff_not] at hnot
    exact ⟨hq, fun heq => hid (congrArg Panel.id heq), fun hf => hnot hf.2⟩
  · rintro ⟨hq, hne, hnot⟩
    have hid : q.id ≠ p.id := fun heq => hne (eq_of_id_eq hq hp heq)
    refine ⟨⟨hq, hid⟩, ?_⟩
    simp only [Bool.not_eq_eq_eq_not, Bool.not_true, decide_eq_false_iff_not]
    exact fun hf => hnot ⟨⟨hq, hid⟩, hf⟩

namespace Perfect

/-- The area handed over is that of the removed panel, since the flank covers the side. -/
theorem area_handOver (h : s.Perfect) (hm : s.OnMesh) (hp : p ∈ s.panels)
    (hu : ((s.erase p.id).flank p b side).Usable p.rect) :
    (((s.erase p.id).handOver p.rect ((s.erase p.id).flank p b side)).panels.map
      (·.rect.area)).sum = 1 := by
  rw [((s.perm_handOver_flank p b side).map _).sum_eq]
  have harea := ((perfect_iff_of_perm (perm_flank hp b side)).1 h).2.2.2
  have hcovered := (h.flank_covered hm hp).1 hu.2
  simp only [List.map_cons, List.map_append, List.map_map, List.sum_cons, List.sum_append,
    Function.comp_def, Rect.area_growOver, List.sum_map_add, List.sum_map_mul_right] at harea ⊢
  rw [hcovered, ← Rect.area_eq]
  linarith

/-- **Handing the area over to a usable flank keeps a layout perfect.** -/
theorem handOver (h : s.Perfect) (hm : s.OnMesh) (hp : p ∈ s.panels)
    (hu : ((s.erase p.id).flank p b side).Usable p.rect) :
    ((s.erase p.id).handOver p.rect ((s.erase p.id).flank p b side)).Perfect := by
  have hmem : ∀ q, q ∈ ((s.erase p.id).flank p b side).panels ↔ _ :=
    fun _ => h.mem_flank_iff hm hp
  have hothers : ∀ q ∈ s.others p b side, q ∈ s.panels ∧ q ≠ p ∧ _ :=
    fun q hq => (mem_others hp).1 hq
  have hppos := h.positive p hp
  have hpin := h.within p hp
  have hperm := s.perm_handOver_flank p b side
  refine (perfect_iff_of_perm hperm).2 ⟨?_, ?_, ?_, ?_⟩
  · intro q hq o
    rcases List.mem_append.1 hq with hq | hq
    · obtain ⟨k, hk, rfl⟩ := List.mem_map.1 hq
      exact Rect.positive_growOver hppos (h.positive k ((hmem k).1 hk).1) o
    · exact h.positive q (hothers q hq).1 o
  · intro q hq o
    rcases List.mem_append.1 hq with hq | hq
    · obtain ⟨k, hk, rfl⟩ := List.mem_map.1 hq
      obtain ⟨hks, hkb, -⟩ := (hmem k).1 hk
      exact hkb.within_growOver hppos (h.positive k hks) hpin (h.within k hks) o
    · exact h.within q (hothers q hq).1 o
  · refine List.pairwise_append.2 ⟨?_, ?_, fun q hq k hk => ?_⟩
    · rw [List.pairwise_map, flank_panels]
      refine ((nodup_panels _).filter _).pairwise_of_forall_ne fun q hq k hk hne => ⟨b, ?_⟩
      rw [← flank_panels] at hq hk
      obtain ⟨hqs, hqb, -⟩ := (hmem q).1 hq
      obtain ⟨hks, hkb, -⟩ := (hmem k).1 hk
      -- along the side nothing has changed, and there the flank has no stretch in common
      rw [Rect.along_growOver, Rect.along_growOver]
      exact fun hmeets => hne (h.eq_of_borders hqs hks hqb hkb hmeets)
    · refine ((nodup_panels _).filter _).pairwise_of_forall_ne fun q hq k hk hne => ?_
      exact h.apart q (hothers q hq).1 k (hothers k hk).1 hne
    · obtain ⟨j, hj, rfl⟩ := List.mem_map.1 hq
      obtain ⟨hjs, hjb, hjin⟩ := (hmem j).1 hj
      obtain ⟨hks, hkp, hkf⟩ := hothers k hk
      have hjk : j ≠ k := fun heq => hkf (heq ▸ hj)
      exact hjb.apart_growOver hjin (hppos _) (h.positive j hjs _) (h.positive k hks _)
        (h.apart j hjs k hks hjk) (h.apart p hp k hks hkp.symm)
  · rw [← (hperm.map _).sum_eq]
    exact h.area_handOver hm hp hu

/-- **A removal leaves no panel or a perfect layout.** -/
theorem remove (h : s.Perfect) (hm : s.OnMesh) (ht : s.remove id = .ok t) :
    t.panels = [] ∨ t.Perfect := by
  cases hfind : s.find? id with
  | none =>
    unfold Layout.remove at ht
    simp [hfind] at ht
  | some r =>
    have hp : (⟨id, r⟩ : Panel ℚ) ∈ s.panels := find?_eq_some_iff.1 hfind
    have heq := remove_eq hp
    rw [ht] at heq
    split at heq
    · cases heq
      exact Or.inl rfl
    · cases heq
      exact Or.inr (perfect_single _ _)
    · split at heq
      · cases heq
      · next hf =>
        cases heq
        obtain ⟨b, side, rfl, hu⟩ := exists_of_heirs? hf
        exact Or.inr (h.handOver hm hp hu)

/-- A removal is refused only if the panel is not alone and none of its sides is flush. -/
theorem remove_ok_or_refused (h : s.Perfect) (hm : s.OnMesh) (hp : p ∈ s.panels) :
    (∃ t, s.remove p.id = .ok t) ∨
      s.remove p.id = .error (.noNeighbour p.id) ∧ 2 ≤ s.size ∧
        ∀ b side, ¬ s.Flush p.rect b side := by
  have hsize := size_erase hp
  rw [remove_eq hp]
  split
  · exact Or.inl ⟨_, rfl⟩
  · exact Or.inl ⟨_, rfl⟩
  · next hnil _ =>
    split
    · next hheirs =>
      have hrest : (s.erase p.id).size ≠ 0 := fun hzero => hnil (List.length_eq_zero_iff.1 hzero)
      exact Or.inr ⟨rfl, by omega, (h.heirs?_eq_none_iff_flush hm hp).1 hheirs⟩
    · exact Or.inl ⟨_, rfl⟩

end Perfect

end Layout

end Mosaic
