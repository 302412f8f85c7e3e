import Mosaic.Proofs.SplitOnly

/-!
# Undoing a split

The panel that a split has created is removed again.  Across the cut its only neighbour is the other
half, which is its twin: together the two start where the halved panel did, at a multiple of their
joint extent.  A panel of the same size on the far side starts half an extent off and is no twin.
Along the other axis nothing rules out a panel that looks like the other half, and if that axis is
the preferred one, the look-alike takes the area.

* `Span.Paired`: the exact meaning of twins, for aligned spans by `Span.twins_iff_paired`.
* `Layout.LookAlike`: some panel beyond a side could be the other half of a cut.
* `Layout.twinFlank_iff`: a usable flank is a twin if and only if it consists of a look-alike.
* `Split.remove_created`: when removing the created panel restores the layout.
-/

namespace Mosaic

open Coordinate

/-! ### Twins -/

namespace Span

/-- The spans have the same extent, and together they start at a multiple of their joint extent. -/
def Paired (s t : Span ℚ) : Prop :=
  t.extent = s.extent ∧ ∃ k : ℤ, min s.start t.start = k * (2 * s.extent)

variable {s t : Span ℚ}

/-- A span that follows or precedes an aligned one of the same extent starts at a multiple of it. -/
theorem Aligned.exists_min_start (h : s.Aligned) (hextent : t.extent = s.extent)
    (hnext : t.stop = s.start ∨ t.start = s.stop) :
    ∃ n : ℤ, min s.start t.start = n * s.extent := by
  have hlt := start_lt_stop h.positive
  obtain ⟨j, m, -, hstart⟩ := h
  rw [stop_eq] at hlt
  rcases hnext with hnext | hnext
  · rw [stop_eq] at hnext
    refine ⟨m - 1, ?_⟩
    rw [min_eq_right (by linarith), eq_sub_of_add_eq hnext, hextent, hstart]
    push_cast
    ring
  · rw [stop_eq] at hnext
    refine ⟨m, ?_⟩
    rw [min_eq_left (by linarith), hstart]
    push_cast
    ring

/-- **For an aligned span and the next one, to be twins is to be paired.** -/
theorem twins_iff_paired (h : s.Aligned) (hmin : mesh ≤ s.extent) (ht : t.OnMesh)
    (hnext : t.stop = s.start ∨ t.start = s.stop) : s.Twins t ↔ s.Paired t := by
  have hlarge : ¬ s.extent ≤ tolerance := not_le.2 (tolerance_lt_mesh.trans_le hmin)
  have hnear : Near s.extent t.extent ↔ t.extent = s.extent :=
    ((h.onMesh hmin).2.near_iff ht.2).trans eq_comm
  have hpos : 0 < s.extent := h.positive
  unfold Twins Paired
  rw [hnear, least_eq_min, twice_eq_two_mul]
  constructor
  · rintro ⟨-, hextent, hslots⟩
    obtain ⟨n, hn⟩ := h.exists_min_start hextent hnext
    have hhalf : min s.start t.start / (2 * s.extent) = (n : ℚ) / 2 := by
      rw [hn]
      field_simp
    rw [hhalf, near_round_half_iff] at hslots
    obtain ⟨k, rfl⟩ := hslots
    refine ⟨hextent, k, ?_⟩
    rw [hn]
    push_cast
    ring
  · rintro ⟨hextent, k, hk⟩
    refine ⟨hlarge, hextent, ?_⟩
    have hwhole : min s.start t.start / (2 * s.extent) = ((k + k : ℤ) : ℚ) / 2 := by
      rw [hk]
      field_simp
      push_cast
      ring
    rw [hwhole]
    exact (near_round_half_iff _).2 ⟨k, rfl⟩

end Span

/-! ### Look-alikes -/

namespace Rect

/-- The second rectangle looks like the other half of a cut: it lies beyond a side of the first,
covers the side and has the same size, and together the two start at a multiple of their joint
extent. -/
def LooksAlike (r q : Rect ℚ) (b : Orientation) (side : Side) : Prop :=
  r.Borders q b side ∧ q.along b = r.along b ∧ (r.along b.flip).Paired (q.along b.flip)

theorem Borders.next {r q : Rect ℚ} {b : Orientation} {side : Side} (h : r.Borders q b side) :
    (q.along b.flip).stop = (r.along b.flip).start ∨
      (q.along b.flip).start = (r.along b.flip).stop := by
  cases side with
  | before => exact Or.inl h.1
  | after => exact Or.inr h.1

namespace Halved

variable {r kept created q : Rect ℚ} {cut : Orientation} {side : Side}

/-- Together the halves start where the halved rectangle does. -/
theorem min_start (h : r.Halved cut side kept created) (hr : ∀ o, (r.along o).Positive) :
    min (created.along cut.flip).start (kept.along cut.flip).start = (r.along cut.flip).start := by
  have hkept := h.kept_edge
  have hcreated := h.created_edge
  have hkeptin := (h.kept_includes hr cut.flip).1
  have hcreatedin := (h.created_includes hr cut.flip).1
  cases side with
  | before =>
    have hstart : (created.along cut.flip).start = (r.along cut.flip).start := hcreated
    rw [min_eq_left (by rw [hstart]; exact hkeptin), hstart]
  | after =>
    have hstart : (kept.along cut.flip).start = (r.along cut.flip).start := hkept
    rw [min_eq_right (by rw [hstart]; exact hcreatedin), hstart]

/-- The half that stays looks like the other half of the cut. -/
theorem looksAlike (h : r.Halved cut side kept created) (hr : ∀ o, (r.along o).Aligned) :
    created.LooksAlike kept cut side.flip := by
  have hpos : ∀ o, (r.along o).Positive := fun o => (hr o).positive
  obtain ⟨j, m, -, hstart⟩ := hr cut.flip
  refine ⟨h.symm.borders hpos, h.kept_along.trans h.created_along.symm, ?_, m, ?_⟩
  · rw [h.kept_extent, h.created_extent]
  · rw [h.min_start hpos, h.created_extent, hstart]
    push_cast
    ring

/-- Nothing on the far side of the created half does. -/
theorem not_looksAlike (h : r.Halved cut side kept created) (hr : ∀ o, (r.along o).Aligned) :
    ¬ created.LooksAlike q cut side := by
  rintro ⟨⟨hedge, -⟩, -, hextent, k, hk⟩
  have hpos : 0 < (r.along cut.flip).extent := (hr cut.flip).positive
  obtain ⟨j, m, -, hstart⟩ := hr cut.flip
  have hcreated := h.created_edge
  rw [h.created_extent] at hextent hk
  -- the union starts half an extent off a multiple of the extent
  have hoff : ∃ n : ℤ, min (created.along cut.flip).start (q.along cut.flip).start =
      (n + 1 / 2) * (r.along cut.flip).extent := by
    cases side with
    | before =>
      have hcut : (created.along cut.flip).start = (r.along cut.flip).start := hcreated
      have hnext : (q.along cut.flip).stop = (created.along cut.flip).start := hedge
      rw [Span.stop_eq, hextent, hcut] at hnext
      refine ⟨m - 1, ?_⟩
      rw [hcut, min_eq_right (by linarith), eq_sub_of_add_eq hnext, hstart]
      push_cast
      ring
    | after =>
      have hcut : (created.along cut.flip).stop = (r.along cut.flip).stop := hcreated
      have hnext : (q.along cut.flip).start = (created.along cut.flip).stop := hedge
      rw [Span.stop_eq, Span.stop_eq, h.created_extent] at hcut
      rw [Span.stop_eq, h.created_extent] at hnext
      refine ⟨m, ?_⟩
      rw [min_eq_left (by linarith), eq_sub_of_add_eq hcut, hstart]
      push_cast
      ring
  obtain ⟨n, hn⟩ := hoff
  rw [hn] at hk
  have hcancel : (n : ℚ) + 1 / 2 = k := by
    refine mul_right_cancel₀ hpos.ne' ?_
    rw [hk]
    ring
  have hodd : (2 * n + 1 : ℚ) = 2 * k := by linarith
  have hodd' : 2 * n + 1 = 2 * k := by exact_mod_cast hodd
  omega

/-- The half that stays grows back to the halved rectangle. -/
theorem growOver (h : r.Halved cut side kept created) (hr : ∀ o, (r.along o).Positive) :
    kept.growOver created cut = r := by
  obtain ⟨hfar, hnear⟩ := (h.symm.borders hr).edge_growOver (h.created_positive hr cut.flip)
    (h.kept_positive hr cut.flip)
  rw [h.kept_edge] at hfar
  rw [Side.flip_flip, h.created_edge] at hnear
  refine Rect.ext_along cut ?_ ?_
  · rw [along_growOver, h.kept_along]
  · cases side with
    | before => exact Span.eq_of_start_stop hnear hfar
    | after => exact Span.eq_of_start_stop hfar hnear

/-- Across the other axis the half that stays is no neighbour of the created one. -/
theorem not_borders (h : r.Halved cut side kept created) (hr : ∀ o, (r.along o).Positive)
    {side' : Side} : ¬ created.Borders kept cut.flip side' := by
  intro hborders
  have hside := (h.symm.borders hr).side_unique hborders (h.created_positive hr)
    (h.kept_positive hr)
  exact Orientation.flip_ne cut hside.1

end Halved

end Rect

namespace Layout

variable {s t u : Layout ℚ} {p q : Panel ℚ} {cut b : Orientation} {kept created : Rect ℚ}
  {side : Side} {id : PanelId}

/-- Some panel across a boundary of the given orientation looks like the other half of a cut. -/
def LookAlike (s : Layout ℚ) (r : Rect ℚ) (b : Orientation) : Prop :=
  ∃ side, ∃ q ∈ s.panels, r.LooksAlike q.rect b side

namespace Perfect

/-- A neighbour that covers a side is the whole flank. -/
theorem flank_eq_singleton (h : s.Perfect) (hm : s.OnMesh) (hp : p ∈ s.panels)
    (hq : q ∈ s.panels) (hborders : p.rect.Borders q.rect b side)
    (halong : q.rect.along b = p.rect.along b) :
    ((s.erase p.id).flank p b side).panels = [q] := by
  have hnodup : ((s.erase p.id).flank p b side).panels.Nodup := by
    rw [flank_panels]
    exact (nodup_panels _).filter _
  refine List.perm_singleton.1 ((List.perm_ext_iff_of_nodup hnodup (List.nodup_singleton q)).2 ?_)
  intro k
  rw [h.mem_flank_iff hm hp, List.mem_singleton]
  constructor
  · rintro ⟨hk, hkborders, -⟩
    refine h.eq_of_borders hk hq hkborders hborders ?_
    rw [halong]
    exact hkborders.2.symm
  · rintro rfl
    refine ⟨hq, hborders, ?_⟩
    rw [halong]
    exact Span.Includes.refl _

/-- **A usable flank is a twin if and only if it consists of a look-alike.** -/
theorem twinFlank_iff (h : s.Perfect) (hm : s.OnMesh) (hp : p ∈ s.panels)
    (haligned : (p.rect.along b.flip).Aligned) (hmin : mesh ≤ (p.rect.along b.flip).extent) :
    (s.erase p.id).TwinFlank p b side ↔ ∃ q ∈ s.panels, p.rect.LooksAlike q.rect b side := by
  have hpaired : ∀ q ∈ s.panels, p.rect.Borders q.rect b side →
      ((p.rect.along b.flip).Twins (q.rect.along b.flip) ↔
        (p.rect.along b.flip).Paired (q.rect.along b.flip)) := fun q hq hborders =>
    Span.twins_iff_paired haligned hmin ((hm q hq).along _) hborders.next
  constructor
  · rintro ⟨husable, htwin⟩
    obtain ⟨q, hpanels⟩ := htwin.exists_panels_eq
    obtain ⟨hq, hborders, hin⟩ := (h.mem_flank_iff hm hp).1 (hpanels ▸ List.mem_singleton_self q)
    -- a single neighbour within the side that covers it has the same span
    have hextent := (h.flank_covered hm hp).1 husable.2
    simp only [hpanels, List.map_singleton, List.sum_singleton] at hextent
    have hstart : (q.rect.along b).start = (p.rect.along b).start := by
      refine le_antisymm ?_ hin.1
      have hstop := hin.2
      rw [Span.stop_eq, Span.stop_eq] at hstop
      linarith
    rw [Flank.isTwin_iff_of_panels_eq hpanels] at htwin
    refine ⟨q, hq, hborders, ?_, (hpaired q hq hborders).1 htwin⟩
    refine Span.eq_of_start_stop hstart ?_
    rw [Span.stop_eq, Span.stop_eq, hstart, hextent]
  · rintro ⟨q, hq, hborders, halong, hpair⟩
    have hpanels := h.flank_eq_singleton hm hp hq hborders halong
    refine ⟨⟨?_, ?_⟩, ?_⟩
    · rw [hpanels]
      exact List.cons_ne_nil _ _
    · refine (h.flank_covered hm hp).2 ?_
      simp only [hpanels, List.map_singleton, List.sum_singleton, halong]
    · rw [Flank.isTwin_iff_of_panels_eq hpanels]
      exact (hpaired q hq hborders).2 hpair

end Perfect

/-! ### Removing the created panel -/

section Restore

variable {c : Panel ℚ}

namespace Split

theorem mem_created (hsplit : s.Split t p cut kept c.rect c.id) : c ∈ t.panels :=
  hsplit.mem_iff.2 (Or.inr (Or.inl rfl))

/-- **If the half that stays takes the area, the layout is restored.** -/
theorem handOver_kept (hsplit : s.Split t p cut kept c.rect c.id) (hs : s.Perfect)
    (hm : t.OnMesh) (hhalved : p.rect.Halved cut side kept c.rect) :
    (t.erase c.id).handOver c.rect ((t.erase c.id).flank c cut side.flip) = s := by
  have hpos := hs.positive p hsplit.mem
  have hpanels := (hsplit.perfect hs).flank_eq_singleton hm hsplit.mem_created hsplit.mem_kept
    (hhalved.symm.borders hpos) (hhalved.kept_along.trans hhalved.created_along.symm)
  have hhandOver : (t.erase c.id).handOver c.rect ((t.erase c.id).flank c cut side.flip) =
      (t.erase c.id).put p := by
    unfold handOver
    rw [hpanels, List.map_singleton, flank_boundary, hhalved.growOver hpos]
    rfl
  rw [hhandOver]
  refine ext_mem hsplit.orientation fun q => ?_
  rw [mem_put, mem_erase, hsplit.mem_iff]
  constructor
  · rintro (rfl | ⟨⟨rfl | rfl | ⟨hq, -⟩, hqc⟩, hqp⟩)
    · exact hsplit.mem
    · exact absurd rfl hqp
    · exact absurd rfl hqc
    · exact hq
  · intro hq
    by_cases hqp : q = p
    · exact Or.inl hqp
    · have hid : q.id ≠ p.id := fun heq => hqp (eq_of_id_eq hq hsplit.mem heq)
      exact Or.inr ⟨⟨Or.inr (Or.inr ⟨hq, hqp⟩), hsplit.id_ne hq⟩, hid⟩

/-- **If panels across the other axis take it, the layout is not restored**, since the half that
stays keeps its size. -/
theorem handOver_ne (hsplit : s.Split t p cut kept c.rect c.id) (hs : s.Perfect)
    (hm : t.OnMesh) (hhalved : p.rect.Halved cut side kept c.rect) {side' : Side} :
    (t.erase c.id).handOver c.rect ((t.erase c.id).flank c cut.flip side') ≠ s := by
  intro heq
  have hpos := hs.positive p hsplit.mem
  have hne : (⟨p.id, kept⟩ : Panel ℚ) ≠ c := by
    rintro rfl
    exact hsplit.id_ne hsplit.mem rfl
  have hother : (⟨p.id, kept⟩ : Panel ℚ) ∈ t.others c cut.flip side' := by
    refine (mem_others hsplit.mem_created).2 ⟨hsplit.mem_kept, hne, fun hflank => ?_⟩
    rw [(hsplit.perfect hs).mem_flank_iff hm hsplit.mem_created] at hflank
    exact hhalved.not_borders hpos hflank.2.1
  have hkept : (⟨p.id, kept⟩ : Panel ℚ) ∈ s.panels := by
    rw [← heq, (t.perm_handOver_flank c cut.flip side').mem_iff]
    exact List.mem_append_right _ hother
  have hrect : kept = p.rect := congrArg Panel.rect (eq_of_id_eq hkept hsplit.mem rfl)
  have hextent := hhalved.kept_extent
  have hpositive : 0 < (p.rect.along cut.flip).extent := hpos cut.flip
  rw [hrect] at hextent
  linarith

/-- Across the cut, the twin of the created panel is the half that stays and nothing else. -/
theorem twinFlank_cut_iff (hsplit : s.Split t p cut kept c.rect c.id) (h : s.SplitOnly)
    (hm : t.OnMesh) (hmin : t.AtLeastMesh) (hhalved : p.rect.Halved cut side kept c.rect)
    {side' : Side} : (t.erase c.id).TwinFlank c cut side' ↔ side' = side.flip := by
  have haligned := h.aligned p hsplit.mem
  rw [(hsplit.perfect h.perfect).twinFlank_iff hm hsplit.mem_created
    (hhalved.symm.aligned haligned _) (hmin c hsplit.mem_created _)]
  constructor
  · rintro ⟨q, -, hlooks⟩
    rcases Side.eq_or_eq_flip side side' with rfl | rfl
    · exact absurd hlooks (hhalved.not_looksAlike haligned)
    · rfl
  · rintro rfl
    exact ⟨_, hsplit.mem_kept, hhalved.looksAlike haligned⟩

/-- Two panels are left after the first split, and either removal restores the layout. -/
theorem remove_of_size_eq_one (hsplit : s.Split t p cut kept c.rect c.id) (h : s.SplitOnly)
    (hsize : s.size = 1) : t.remove c.id = .ok s := by
  have hrest : (t.erase c.id).panels.length = 1 := by
    have := size_erase hsplit.mem_created
    have := hsplit.size_eq
    unfold size at *
    omega
  obtain ⟨q, hq⟩ := List.length_eq_one_iff.1 hrest
  have hkept : (⟨p.id, kept⟩ : Panel ℚ) ∈ (t.erase c.id).panels := by
    refine mem_erase.2 ⟨hsplit.mem_kept, fun heq => hsplit.fresh ?_⟩
    exact mem_ids.2 ⟨p, hsplit.mem, heq⟩
  rw [hq, List.mem_singleton] at hkept
  rw [remove_eq hsplit.mem_created, hq, ← hkept, hsplit.orientation]
  exact congrArg Except.ok (h.eq_single hsplit.mem hsize).symm

theorem not_lookAlike_of_size_eq_one (hsplit : s.Split t p cut kept c.rect c.id) (hs : s.Perfect)
    (hhalved : p.rect.Halved cut side kept c.rect) (hsize : s.size = 1) :
    ¬ t.LookAlike c.rect cut.flip := by
  rintro ⟨side', q, hq, hborders, -⟩
  have hne := (hsplit.perfect hs).ne_of_borders hsplit.mem_created hborders
  rcases hsplit.mem_iff.1 hq with rfl | rfl | ⟨hq, hqp⟩
  · exact hhalved.not_borders (hs.positive p hsplit.mem) hborders
  · exact hne rfl
  · obtain ⟨a, ha⟩ := List.length_eq_one_iff.1 hsize
    have hp := hsplit.mem
    rw [ha, List.mem_singleton] at hq hp
    exact hqp (hq.trans hp.symm)

/-- In a layout that prefers the axis of the cut, the half that stays is the heir. -/
theorem heirs?_of_orientation_eq (hsplit : s.Split t p cut kept c.rect c.id) (h : s.SplitOnly)
    (hm : t.OnMesh) (hmin : t.AtLeastMesh) (hhalved : p.rect.Halved cut side kept c.rect)
    (ho : s.orientation = cut) :
    (t.erase c.id).heirs? c = some ((t.erase c.id).flank c cut side.flip) := by
  have horientation : (t.erase c.id).orientation = cut := hsplit.orientation.trans ho
  obtain ⟨side', hheirs, htwin⟩ := heirs?_of_twinFlank horientation
    ((hsplit.twinFlank_cut_iff h hm hmin hhalved).2 rfl)
  rw [hheirs, (hsplit.twinFlank_cut_iff h hm hmin hhalved).1 htwin]

theorem lookAlike_iff_twinFlank (hsplit : s.Split t p cut kept c.rect c.id) (ht : t.SplitOnly)
    (hmin : t.AtLeastMesh) :
    t.LookAlike c.rect b ↔ ∃ side', (t.erase c.id).TwinFlank c b side' := by
  have hc := hsplit.mem_created
  refine exists_congr fun side' => ?_
  exact (ht.perfect.twinFlank_iff (ht.onMesh hmin) hc (ht.aligned c hc _) (hmin c hc _)).symm

/-- So it is in a layout that prefers the other axis and has no look-alike there. -/
theorem heirs?_of_not_lookAlike (hsplit : s.Split t p cut kept c.rect c.id) (h : s.SplitOnly)
    (ht : t.SplitOnly) (hmin : t.AtLeastMesh) (hhalved : p.rect.Halved cut side kept c.rect)
    (ho : s.orientation = cut.flip) (hno : ¬ t.LookAlike c.rect cut.flip) :
    (t.erase c.id).heirs? c = some ((t.erase c.id).flank c cut side.flip) := by
  have hm := ht.onMesh hmin
  have horientation : (t.erase c.id).orientation = cut.flip := hsplit.orientation.trans ho
  rw [hsplit.lookAlike_iff_twinFlank ht hmin, not_exists] at hno
  obtain ⟨side', hheirs, htwin⟩ := heirs?_of_twinFlank_flip horientation hno
    ((hsplit.twinFlank_cut_iff h hm hmin hhalved).2 rfl)
  rw [hheirs, (hsplit.twinFlank_cut_iff h hm hmin hhalved).1 htwin]

/-- A look-alike across the preferred axis is the heir. -/
theorem exists_heirs?_of_lookAlike (hsplit : s.Split t p cut kept c.rect c.id)
    (ht : t.SplitOnly) (hmin : t.AtLeastMesh) (ho : s.orientation = cut.flip)
    (hlook : t.LookAlike c.rect cut.flip) :
    ∃ side', (t.erase c.id).heirs? c = some ((t.erase c.id).flank c cut.flip side') := by
  have horientation : (t.erase c.id).orientation = cut.flip := hsplit.orientation.trans ho
  obtain ⟨side', htwin⟩ := (hsplit.lookAlike_iff_twinFlank ht hmin).1 hlook
  obtain ⟨side'', hheirs, -⟩ := heirs?_of_twinFlank horientation htwin
  exact ⟨side'', hheirs⟩

/-- **When removing the created panel restores the layout.**  The removal succeeds, and it restores
the layout exactly unless the other axis is preferred and offers a look-alike. -/
theorem remove_created (hsplit : s.Split t p cut kept c.rect c.id) (h : s.SplitOnly)
    (ht : t.SplitOnly) (hmin : t.AtLeastMesh) :
    ∃ u, t.remove c.id = .ok u ∧
      (u = s ↔ cut = s.orientation ∨ ¬ t.LookAlike c.rect s.orientation) := by
  obtain ⟨side, hhalved⟩ := hsplit.exists_halved
  have hs := h.perfect
  have hm := ht.onMesh hmin
  have hrestored := hsplit.handOver_kept hs hm hhalved
  by_cases hone : s.size = 1
  · refine ⟨s, hsplit.remove_of_size_eq_one h hone, iff_of_true rfl ?_⟩
    rcases Orientation.eq_or_eq_flip cut s.orientation with ho | ho
    · exact Or.inl ho.symm
    · rw [ho]
      exact Or.inr (hsplit.not_lookAlike_of_size_eq_one hs hhalved hone)
  · have hthree : 3 ≤ t.size := by
      have hsize := hsplit.size_eq
      have herase := size_erase hsplit.mem
      omega
    rw [remove_of_three_le hsplit.mem_created hthree]
    rcases Orientation.eq_or_eq_flip cut s.orientation with ho | ho
    · rw [hsplit.heirs?_of_orientation_eq h hm hmin hhalved ho]
      exact ⟨_, rfl, iff_of_true hrestored (Or.inl ho.symm)⟩
    · have hne : cut ≠ s.orientation := by
        rw [ho]
        exact (Orientation.flip_ne cut).symm
      rw [ho] at hne ⊢
      by_cases hlook : t.LookAlike c.rect cut.flip
      · obtain ⟨side', hheirs⟩ := hsplit.exists_heirs?_of_lookAlike ht hmin ho hlook
        rw [hheirs]
        refine ⟨_, rfl, iff_of_false (hsplit.handOver_ne hs hm hhalved) ?_⟩
        rintro (heq | hnot)
        · exact hne heq
        · exact hnot hlook
      · rw [hsplit.heirs?_of_not_lookAlike h ht hmin hhalved ho hlook]
        exact ⟨_, rfl, iff_of_true hrestored (Or.inr hlook)⟩

end Split

/-- Of four quarters in a horizontal layout, a removed one goes to the quarter below it and not to
the one beside it, whichever of the two it was cut from. -/
example :
    ((empty .horizontal).putAll [⟨⟨1⟩, ⟨0, 0, 1 / 2, 1 / 2⟩⟩, ⟨⟨2⟩, ⟨0, 1 / 2, 1 / 2, 1 / 2⟩⟩,
      ⟨⟨3⟩, ⟨1 / 2, 1 / 2, 1 / 2, 1 / 2⟩⟩, ⟨⟨4⟩, ⟨1 / 2, 0, 1 / 2, 1 / 2⟩⟩] : Layout ℚ).remove ⟨4⟩ =
    .ok ((empty .horizontal).putAll [⟨⟨1⟩, ⟨0, 0, 1 / 2, 1 / 2⟩⟩, ⟨⟨2⟩, ⟨0, 1 / 2, 1 / 2, 1 / 2⟩⟩,
      ⟨⟨3⟩, ⟨1 / 2, 0, 1 / 2, 1⟩⟩]) := by
  cbv

end Restore

end Layout

end Mosaic
