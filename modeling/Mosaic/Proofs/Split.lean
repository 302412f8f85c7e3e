import Mosaic.Proofs.Sides

/-!
# Splits

A cut halves a panel, and the two halves face each other across it.  Nothing else in the layout
changes, so a split keeps a layout perfect.

* `Rect.Halved r cut side kept created`: the two halves, `created` on the given side of `kept`.
* `Layout.Split.perfect`: a split keeps a layout perfect.
-/

namespace Mosaic

open Coordinate

/-! ### Halves -/

namespace Rect

@[simp] theorem along_unit (o : Orientation) : (unit : Rect ℚ).along o = ⟨0, 1⟩ := by
  cases o <;> rfl

/-- `kept` and `created` are the halves of the rectangle on either side of a cut through its middle,
and `created` lies on the given side of `kept`. -/
structure Halved (r : Rect ℚ) (cut : Orientation) (side : Side) (kept created : Rect ℚ) : Prop where
  kept_along : kept.along cut = r.along cut
  created_along : created.along cut = r.along cut
  kept_extent : (kept.along cut.flip).extent = (r.along cut.flip).extent / 2
  created_extent : (created.along cut.flip).extent = (r.along cut.flip).extent / 2
  kept_edge : kept.edge cut side.flip = r.edge cut side.flip
  created_edge : created.edge cut side = r.edge cut side
  inner_edge : created.edge cut side.flip = kept.edge cut side

theorem halved_split (r : Rect ℚ) (cut : Orientation) :
    r.Halved cut .after (r.split cut).1 (r.split cut).2 := by
  have hhalf := half_eq_div_two (r.along cut.flip).extent
  have hfirst : (r.split cut).1.along cut.flip =
      ⟨(r.along cut.flip).start, (r.along cut.flip).extent / 2⟩ := by
    simp [split, Span.halves, hhalf]
  have hsecond : (r.split cut).2.along cut.flip =
      ⟨(r.along cut.flip).start + (r.along cut.flip).extent / 2,
        (r.along cut.flip).extent / 2⟩ := by
    simp [split, Span.halves, hhalf]
    ring
  refine ⟨by simp [split], by simp [split], ?_, ?_, ?_, ?_, ?_⟩
  · rw [hfirst]
  · rw [hsecond]
  · simp [edge, Span.bound, hfirst]
  · simp [edge, Span.bound, hsecond, Span.stop_eq]
    ring
  · simp [edge, Span.bound, hfirst, hsecond, Span.stop_eq]

variable {r kept created q : Rect ℚ} {cut b : Orientation} {side : Side}

theorem Halved.symm (h : r.Halved cut side kept created) :
    r.Halved cut side.flip created kept where
  kept_along := h.created_along
  created_along := h.kept_along
  kept_extent := h.created_extent
  created_extent := h.kept_extent
  kept_edge := by rw [Side.flip_flip, h.created_edge]
  created_edge := h.kept_edge
  inner_edge := by rw [Side.flip_flip, h.inner_edge]

/-- The halves of a cut, whichever of them stays. -/
theorem exists_halved (h : r.split cut = (kept, created) ∨ r.split cut = (created, kept)) :
    ∃ side, r.Halved cut side kept created := by
  have hsplit := r.halved_split cut
  rcases h with h | h
  · rw [h] at hsplit
    exact ⟨_, hsplit⟩
  · rw [h] at hsplit
    exact ⟨_, hsplit.symm⟩

namespace Halved

theorem kept_positive (h : r.Halved cut side kept created) (hr : ∀ o, (r.along o).Positive)
    (o : Orientation) : (kept.along o).Positive := by
  rcases Orientation.eq_or_eq_flip cut o with rfl | rfl
  · rw [h.kept_along]
    exact hr _
  · unfold Span.Positive
    rw [h.kept_extent]
    exact half_pos (hr _)

theorem kept_includes (h : r.Halved cut side kept created) (hr : ∀ o, (r.along o).Positive)
    (o : Orientation) : (r.along o).Includes (kept.along o) := by
  rcases Orientation.eq_or_eq_flip cut o with rfl | rfl
  · rw [h.kept_along]
    exact Span.Includes.refl _
  · have hpos : 0 < (r.along cut.flip).extent := hr cut.flip
    have hext := h.kept_extent
    have hedge := h.kept_edge
    unfold edge at hedge
    cases side with
    | before =>
      have hstop : (kept.along cut.flip).stop = (r.along cut.flip).stop := hedge
      refine ⟨?_, hstop.le⟩
      rw [Span.stop_eq, Span.stop_eq] at hstop
      linarith
    | after =>
      have hstart : (kept.along cut.flip).start = (r.along cut.flip).start := hedge
      refine ⟨hstart.ge, ?_⟩
      rw [Span.stop_eq, Span.stop_eq]
      linarith

theorem created_positive (h : r.Halved cut side kept created) (hr : ∀ o, (r.along o).Positive)
    (o : Orientation) : (created.along o).Positive :=
  h.symm.kept_positive hr o

theorem created_includes (h : r.Halved cut side kept created) (hr : ∀ o, (r.along o).Positive)
    (o : Orientation) : (r.along o).Includes (created.along o) :=
  h.symm.kept_includes hr o

/-- The halves face each other across the cut. -/
theorem borders (h : r.Halved cut side kept created) (hr : ∀ o, (r.along o).Positive) :
    kept.Borders created cut side := by
  refine ⟨h.inner_edge, ?_⟩
  rw [h.kept_along, h.created_along]
  exact (Span.Includes.refl _).meets (hr cut)

theorem area (h : r.Halved cut side kept created) : kept.area + created.area = r.area := by
  rw [area_eq kept cut, area_eq created cut, area_eq r cut, h.kept_along, h.created_along,
    h.kept_extent, h.created_extent]
  ring

end Halved

/-- Rectangles that border each other are apart. -/
theorem Borders.apart (h : r.Borders q b side) : r.Apart q := by
  refine (apart_iff b).2 (Or.inr ?_)
  rw [Span.not_meets_iff]
  cases side with
  | before => exact Or.inl (show (q.along b.flip).stop = (r.along b.flip).start from h.1).le
  | after => exact Or.inr (show (q.along b.flip).start = (r.along b.flip).stop from h.1).ge

theorem Apart.mono (h : r.Apart q) (hin : ∀ o, (r.along o).Includes (kept.along o)) :
    kept.Apart q := by
  obtain ⟨o, ho⟩ := h
  exact ⟨o, fun hmeets => ho (hmeets.symm.mono (hin o)).symm⟩

end Rect

/-! ### Perfect layouts up to the order of the panels -/

namespace Layout

variable {s t : Layout ℚ} {p : Panel ℚ} {cut : Orientation} {kept created : Rect ℚ} {id : PanelId}

theorem perfect_iff_of_perm {l : List (Panel ℚ)} (hl : s.panels.Perm l) :
    s.Perfect ↔ (∀ q ∈ l, ∀ o, (q.rect.along o).Positive) ∧
      (∀ q ∈ l, ∀ o, 0 ≤ (q.rect.along o).start ∧ (q.rect.along o).stop ≤ 1) ∧
      l.Pairwise (·.rect.Apart ·.rect) ∧ (l.map (·.rect.area)).sum = 1 := by
  have hsymm : ∀ {p q : Panel ℚ}, p.rect.Apart q.rect → q.rect.Apart p.rect := Rect.Apart.symm
  have hsum : (s.panels.map (·.rect.area)).sum = (l.map (·.rect.area)).sum :=
    (hl.map _).sum_eq
  constructor
  · intro h
    refine ⟨fun q hq => h.positive q (hl.mem_iff.2 hq), fun q hq => h.within q (hl.mem_iff.2 hq),
      ?_, hsum ▸ h.area⟩
    refine (hl.pairwise_iff hsymm).1 (s.nodup_panels.pairwise_of_forall_ne ?_)
    exact fun p hp q hq hne => h.apart p hp q hq hne
  · rintro ⟨hpos, hin, hapart, harea⟩
    refine ⟨fun q hq => hpos q (hl.mem_iff.1 hq), fun q hq => hin q (hl.mem_iff.1 hq),
      fun p hp q hq hne => ?_, hsum.trans harea⟩
    have : Std.Symm fun p q : Panel ℚ => p.rect.Apart q.rect := ⟨fun _ _ => hsymm⟩
    exact hapart.forall (hl.mem_iff.1 hp) (hl.mem_iff.1 hq) hne

theorem perfect_single (id : PanelId) (o : Orientation) : (single id o : Layout ℚ).Perfect := by
  have hperm : (single id o : Layout ℚ).panels.Perm [⟨id, .unit⟩] := List.Perm.refl _
  refine (perfect_iff_of_perm hperm).2 ⟨?_, ?_, List.pairwise_singleton _ _, ?_⟩
  · intro q hq o
    rw [List.mem_singleton.1 hq, Rect.along_unit]
    exact zero_lt_one
  · intro q hq o
    rw [List.mem_singleton.1 hq, Rect.along_unit]
    exact ⟨le_rfl, by simp [Span.stop_eq]⟩
  · simp [Rect.area, Rect.unit]

/-! ### Splits keep layouts perfect -/

namespace Split

theorem exists_halved (h : s.Split t p cut kept created id) :
    ∃ side, p.rect.Halved cut side kept created :=
  Rect.exists_halved h.halves

/-- **A split keeps a layout perfect.** -/
theorem perfect (h : s.Split t p cut kept created id) (hs : s.Perfect) : t.Perfect := by
  obtain ⟨side, hhalved⟩ := h.exists_halved
  have hpos := hs.positive p h.mem
  obtain ⟨hposs, hins, haparts, hareas⟩ := (perfect_iff_of_perm (perm_cons_erase h.mem)).1 hs
  rw [List.pairwise_cons] at haparts
  refine (perfect_iff_of_perm h.perm).2 ⟨?_, ?_, ?_, ?_⟩
  · intro q hq o
    simp only [List.mem_cons] at hq
    rcases hq with rfl | rfl | hq
    · exact hhalved.kept_positive hpos o
    · exact hhalved.created_positive hpos o
    · exact hposs q (List.mem_cons_of_mem _ hq) o
  · intro q hq o
    have hp := hs.within p h.mem o
    simp only [List.mem_cons] at hq
    rcases hq with rfl | rfl | hq
    · have hin := hhalved.kept_includes hpos o
      exact ⟨hp.1.trans hin.1, hin.2.trans hp.2⟩
    · have hin := hhalved.created_includes hpos o
      exact ⟨hp.1.trans hin.1, hin.2.trans hp.2⟩
    · exact hins q (List.mem_cons_of_mem _ hq) o
  · rw [List.pairwise_cons, List.pairwise_cons]
    refine ⟨fun q hq => ?_, fun q hq => ?_, haparts.2⟩
    · rcases List.mem_cons.1 hq with rfl | hq
      · exact (hhalved.borders hpos).apart
      · exact (haparts.1 q hq).mono (hhalved.kept_includes hpos)
    · exact (haparts.1 q hq).mono (hhalved.created_includes hpos)
  · simp only [List.map_cons, List.sum_cons] at hareas ⊢
    rw [← add_assoc, hhalved.area, hareas]

end Split

end Layout

end Mosaic
