import Mosaic.Proofs.Tiling

/-!
# Sides of panels

A panel has two sides across each orientation of a boundary.  In a perfect layout on the mesh the
comparisons up to the tolerance are exact, and what happens at a side is planar geometry:

* `Perfect.exists_borders`: beyond every point of a side inside the workspace lies a panel that
  shares a stretch of it.
* `Perfect.usable_iff_flush`: the neighbours on a side can take the area of a panel if and only if
  the side is inside the workspace and no panel sticks out past one of its ends.
* `Perfect.heirs?_eq_none_iff_flush`: there are no heirs if and only if no side of the panel is
  flush.
-/

namespace Mosaic

open Coordinate

/-! ### Edges -/

namespace Side

/-- The opposite side. -/
def flip : Side → Side
  | .before => .after
  | .after => .before

/-- Where the workspace ends on a side. -/
def border : Side → ℚ
  | .before => 0
  | .after => 1

@[simp] theorem flip_before : before.flip = after := rfl

@[simp] theorem flip_after : after.flip = before := rfl

@[simp] theorem flip_flip (side : Side) : side.flip.flip = side := by
  cases side <;> rfl

theorem eq_or_eq_flip (side other : Side) : other = side ∨ other = side.flip := by
  cases side <;> cases other <;> simp

end Side

/-- The end of a span on a side. -/
def Span.bound (s : Span ℚ) : Side → ℚ
  | .before => s.start
  | .after => s.stop

theorem Span.OnMesh.bound {s : Span ℚ} (h : s.OnMesh) (side : Side) :
    Mosaic.OnMesh (s.bound side) := by
  cases side
  · exact h.1
  · exact h.stop

namespace Rect

/-- The line on which a side of the rectangle lies, across a boundary of the given orientation. -/
def edge (r : Rect ℚ) (b : Orientation) (side : Side) : ℚ :=
  (r.along b.flip).bound side

/-- The second rectangle lies beyond a side of the first and shares a stretch of it. -/
def Borders (r q : Rect ℚ) (b : Orientation) (side : Side) : Prop :=
  q.edge b side.flip = r.edge b side ∧ (r.along b).Meets (q.along b)

instance (r q : Rect ℚ) (b : Orientation) (side : Side) : Decidable (r.Borders q b side) :=
  inferInstanceAs (Decidable (_ ∧ _))

variable {r q : Rect ℚ} {b b' : Orientation} {side side' : Side}

theorem edge_flip (r : Rect ℚ) (b : Orientation) (side : Side) :
    r.edge b.flip side = (r.along b).bound side := by
  unfold edge
  rw [Orientation.flip_flip]

theorem edge_before_lt_after (h : (r.along b.flip).Positive) : r.edge b .before < r.edge b .after :=
  Span.start_lt_stop h

theorem Borders.symm (h : r.Borders q b side) : q.Borders r b side.flip :=
  ⟨by rw [Side.flip_flip, h.1], h.2.symm⟩

/-- The two edges across an orientation lie on different lines. -/
theorem edge_inj (h : (r.along b.flip).Positive) : r.edge b side' = r.edge b side ↔ side' = side := by
  have hlt := edge_before_lt_after h
  cases side <;> cases side' <;> simp [hlt.ne, hlt.ne']

/-- A rectangle borders another one on one side only. -/
theorem Borders.side_unique (h : r.Borders q b side) (h' : r.Borders q b' side')
    (hr : ∀ o, (r.along o).Positive) (hq : ∀ o, (q.along o).Positive) : b' = b ∧ side' = side := by
  rcases Orientation.eq_or_eq_flip b b' with rfl | rfl
  · refine ⟨rfl, ?_⟩
    rcases Side.eq_or_eq_flip side side' with rfl | rfl
    · rfl
    · have hrlt := edge_before_lt_after (hr b'.flip)
      have hqlt := edge_before_lt_after (hq b'.flip)
      have hnear := h.1
      have hfar := h'.1
      rw [Side.flip_flip] at hfar
      cases side
      · simp only [Side.flip_before] at hnear hfar
        linarith
      · simp only [Side.flip_after] at hnear hfar
        linarith
  · -- beyond a side across the other direction there is no stretch in common along this one
    exfalso
    have hnear := h'.1
    rw [edge_flip, edge_flip] at hnear
    have hmeets := h.2
    cases side'
    · have hstop : (q.along b).stop = (r.along b).start := hnear
      exact hmeets.1.ne hstop.symm
    · have hstart : (q.along b).start = (r.along b).stop := hnear
      exact hmeets.2.ne hstart

/-- On the mesh a neighbour touches a side exactly. -/
theorem sideTouched_iff (hr : r.OnMesh) (hq : q.OnMesh) (hrpos : (r.along b.flip).Positive)
    (hqpos : (q.along b.flip).Positive) :
    r.sideTouched q b = some side ↔
      (r.along b).Includes (q.along b) ∧ q.edge b side.flip = r.edge b side := by
  have hcovers := Span.covers_iff (hr.along b) (hq.along b)
  have hbefore : Coordinate.Near (q.along b.flip).stop (r.along b.flip).start ↔
      q.edge b .after = r.edge b .before :=
    (hq.along b.flip).stop.near_iff (hr.along b.flip).1
  have hafter : Coordinate.Near (q.along b.flip).start (r.along b.flip).stop ↔
      q.edge b .before = r.edge b .after :=
    (hq.along b.flip).1.near_iff (hr.along b.flip).stop
  have hrlt := edge_before_lt_after hrpos
  have hqlt := edge_before_lt_after hqpos
  unfold sideTouched
  rw [if_congr hcovers (if_congr hbefore rfl (if_congr hafter rfl rfl)) rfl]
  cases side with
  | before => split_ifs <;> simp_all
  | after =>
    split_ifs with hin heq
    · -- a panel that ends before the first one does not begin after it
      simp only [Option.some.injEq, reduceCtorEq, Side.flip_after, false_iff, not_and]
      intro _ heq'
      linarith
    · simp_all
    · simp_all
    · simp_all

end Rect

/-! ### Panels along a side -/

namespace Layout

/-- The side is inside the workspace, and no panel that shares a stretch of it sticks out past one
of its ends. -/
def Flush (s : Layout ℚ) (r : Rect ℚ) (b : Orientation) (side : Side) : Prop :=
  r.edge b side ≠ side.border ∧
    ∀ q ∈ s.panels, r.Borders q.rect b side → (r.along b).Includes (q.rect.along b)

/-- The side is covered by panels beyond it, and these lie within its extent. -/
def CoveredExactly (s : Layout ℚ) (r : Rect ℚ) (b : Orientation) (side : Side) : Prop :=
  (∀ q ∈ s.panels, r.Borders q.rect b side → (r.along b).Includes (q.rect.along b)) ∧
    ∀ t : ℝ, r.lower b < t → t < r.upper b →
      ∃ q ∈ s.panels, r.Borders q.rect b side ∧ q.rect.lower b ≤ t ∧ t ≤ q.rect.upper b

namespace Perfect

variable {s : Layout ℚ} {p q k : Panel ℚ} {b : Orientation} {side : Side}

theorem edge_mem_unit (h : s.Perfect) (hp : p ∈ s.panels) (b : Orientation) (side : Side) :
    0 ≤ p.rect.edge b side ∧ p.rect.edge b side ≤ 1 := by
  obtain ⟨hlow, hupp⟩ := h.within p hp b.flip
  have hlt := Span.start_lt_stop (h.positive p hp b.flip)
  cases side
  · exact ⟨hlow, hlt.le.trans hupp⟩
  · exact ⟨hlow.trans hlt.le, hupp⟩

/-- Two panels with a stretch in common in one direction follow one another in the other. -/
theorem follows_of_meets (h : s.Perfect) (hp : p ∈ s.panels) (hq : q ∈ s.panels) (hne : p ≠ q)
    (hmeets : (p.rect.along b).Meets (q.rect.along b)) :
    (q.rect.along b.flip).stop ≤ (p.rect.along b.flip).start ∨
      (p.rect.along b.flip).stop ≤ (q.rect.along b.flip).start := by
  rw [← Span.not_meets_iff]
  exact ((Rect.apart_iff b).1 (h.apart p hp q hq hne)).resolve_left (not_not_intro hmeets)

/-- Two panels that end on the same line, on the same side of it, and have a stretch in common are
the same panel. -/
theorem eq_of_edge_eq (h : s.Perfect) (hp : p ∈ s.panels) (hq : q ∈ s.panels)
    (hedge : p.rect.edge b side = q.rect.edge b side)
    (hmeets : (p.rect.along b).Meets (q.rect.along b)) : p = q := by
  by_contra hne
  have hpos := Span.start_lt_stop (h.positive p hp b.flip)
  have hpos' := Span.start_lt_stop (h.positive q hq b.flip)
  have hfollows := h.follows_of_meets hp hq hne hmeets
  cases side with
  | before =>
    have hstart : (p.rect.along b.flip).start = (q.rect.along b.flip).start := hedge
    rcases hfollows with hle | hle <;> linarith
  | after =>
    have hstop : (p.rect.along b.flip).stop = (q.rect.along b.flip).stop := hedge
    rcases hfollows with hle | hle <;> linarith

/-- A panel that shares a stretch of a side is another panel. -/
theorem ne_of_borders (h : s.Perfect) (hp : p ∈ s.panels)
    (hb : p.rect.Borders q.rect b side) : q ≠ p := by
  rintro rfl
  have hlt := Rect.edge_before_lt_after (h.positive q hp b.flip)
  cases side with
  | before => exact hlt.ne' hb.1
  | after => exact hlt.ne hb.1

/-- A side with a panel beyond it is inside the workspace. -/
theorem inner_of_borders (h : s.Perfect) (hq : q ∈ s.panels) {r : Rect ℚ}
    (hb : r.Borders q.rect b side) : r.edge b side ≠ side.border := by
  have hunit := h.edge_mem_unit hq b
  have hlt := Rect.edge_before_lt_after (h.positive q hq b.flip)
  intro heq
  cases side with
  | before =>
    have hzero : q.rect.edge b .after = 0 := hb.1.trans heq
    linarith [(hunit .before).1]
  | after =>
    have hone : q.rect.edge b .before = 1 := hb.1.trans heq
    linarith [(hunit .after).2]

theorem eq_of_borders (h : s.Perfect) (hq : q ∈ s.panels) (hk : k ∈ s.panels) {r : Rect ℚ}
    (hpq : r.Borders q.rect b side) (hpk : r.Borders k.rect b side)
    (hmeets : (q.rect.along b).Meets (k.rect.along b)) : q = k :=
  h.eq_of_edge_eq hq hk (hpq.1.trans hpk.1.symm) hmeets

/-- A segment that leaves a panel through one of its sides ends in another panel: the points beyond
the side lie in other panels, and so does their limit. -/
theorem exists_reaches_beyond (h : s.Perfect) (hp : p ∈ s.panels) {c d y t : ℝ}
    (hunit : 0 ≤ c ∧ d ≤ 1) (hcd : c < d) (hy : c ≤ y ∧ y ≤ d)
    (hbeyond : d ≤ p.rect.lower b.flip ∨ p.rect.upper b.flip ≤ c)
    (ht : p.rect.lower b < t ∧ t < p.rect.upper b) :
    ∃ q ∈ s.panels, q ≠ p ∧ q.rect.Reaches (.onLine b y t) := by
  classical
  have hpunit := Rect.within_real (h.within p hp b)
  have hcover : ∀ w ∈ Boxes.interior (fun _ : Unit => c) (fun _ => d),
      ∃ q ∈ (s.panels.filter fun q => q ≠ p ∧ q.rect.lower b ≤ t ∧ t ≤ q.rect.upper b).toFinset,
        (fun _ => q.rect.lower b.flip) ≤ w ∧ w ≤ fun _ => q.rect.upper b.flip := by
    intro w hw
    have hwcd := Boxes.mem_interior.1 hw ()
    obtain ⟨q, hq, hreach⟩ := h.exists_reaches (v := .onLine b (w ()) t) (by
      rw [Orientation.forall_iff b, Point.along_onLine, Point.along_flip_onLine]
      exact ⟨⟨hpunit.1.trans ht.1.le, ht.2.le.trans hpunit.2⟩,
        ⟨hunit.1.trans hwcd.1.le, hwcd.2.le.trans hunit.2⟩⟩)
    rw [Rect.reaches_onLine] at hreach
    refine ⟨q, ?_, fun _ => hreach.2.1, fun _ => hreach.2.2⟩
    simp only [List.mem_toFinset, List.mem_filter, decide_eq_true_eq]
    refine ⟨hq, ?_, hreach.1⟩
    rintro rfl
    rcases hbeyond with hle | hle
    · linarith [hreach.2.1, hwcd.2]
    · linarith [hreach.2.2, hwcd.1]
  obtain ⟨q, hq, hlow, hupp⟩ := Boxes.exists_of_mem_closure hcover
    (Boxes.mem_closure_interior (v := fun _ => y) (fun _ => hcd) fun _ => hy)
  simp only [List.mem_toFinset, List.mem_filter, decide_eq_true_eq] at hq
  exact ⟨q, hq.1, hq.2.1, Rect.reaches_onLine.2 ⟨hq.2.2, hlow (), hupp ()⟩⟩

/-- **Beyond every point of a side inside the workspace lies a panel that shares a stretch of the
side there.** -/
theorem exists_borders (h : s.Perfect) (hp : p ∈ s.panels)
    (hinner : p.rect.edge b side ≠ side.border) {t : ℝ}
    (ht : p.rect.lower b < t ∧ t < p.rect.upper b) :
    ∃ q ∈ s.panels, p.rect.Borders q.rect b side ∧ q.rect.lower b ≤ t ∧ t ≤ q.rect.upper b := by
  have hunit := Rect.within_real (h.within p hp b.flip)
  have hpos := Rect.lower_lt_upper (h.positive p hp) b.flip
  obtain ⟨q, hq, hne, hreach⟩ :
      ∃ q ∈ s.panels, q ≠ p ∧ q.rect.Reaches (.onLine b (p.rect.edge b side) t) := by
    cases side with
    | before =>
      have hzero : (0 : ℝ) < p.rect.lower b.flip :=
        lt_of_le_of_ne hunit.1 fun heq => hinner (Rat.cast_eq_zero.1 heq.symm)
      exact h.exists_reaches_beyond hp ⟨le_rfl, hpos.le.trans hunit.2⟩ hzero ⟨hzero.le, le_rfl⟩
        (Or.inl le_rfl) ht
    | after =>
      have hone : p.rect.upper b.flip < (1 : ℝ) :=
        lt_of_le_of_ne hunit.2 fun heq => hinner (Rat.cast_injective (heq.trans Rat.cast_one.symm))
      exact h.exists_reaches_beyond hp ⟨hunit.1.trans hpos.le, le_rfl⟩ hone ⟨le_rfl, hone.le⟩
        (Or.inr le_rfl) ht
  rw [Rect.reaches_onLine] at hreach
  refine ⟨q, hq, ?_, hreach.1⟩
  have hmeets : (p.rect.along b).Meets (q.rect.along b) :=
    ⟨Rat.cast_lt.1 (ht.1.trans_le hreach.1.2), Rat.cast_lt.1 (hreach.1.1.trans_lt ht.2)⟩
  refine ⟨?_, hmeets⟩
  -- the panels have no stretch in common across the side, so they lie on either side of it
  have hfollows := h.follows_of_meets hp hq hne.symm hmeets
  have hlow : (q.rect.along b.flip).start ≤ p.rect.edge b side := Rat.cast_le.1 hreach.2.1
  have hupp : p.rect.edge b side ≤ (q.rect.along b.flip).stop := Rat.cast_le.1 hreach.2.2
  have hplt := Rect.edge_before_lt_after (h.positive p hp b.flip)
  cases side with
  | before =>
    rcases hfollows with hle | hle
    · exact le_antisymm hle hupp
    · exact absurd (hplt.trans_le (hle.trans hlow)) (lt_irrefl _)
  | after =>
    rcases hfollows with hle | hle
    · exact absurd (hplt.trans_le (hupp.trans hle)) (lt_irrefl _)
    · exact le_antisymm hlow hle

/-- The panels beyond a flush side cover it exactly. -/
theorem coveredExactly_of_flush (h : s.Perfect) (hp : p ∈ s.panels)
    (hflush : s.Flush p.rect b side) : s.CoveredExactly p.rect b side :=
  ⟨hflush.2, fun _ hlow hupp => h.exists_borders hp hflush.1 ⟨hlow, hupp⟩⟩

/-- A panel that is not alone has a side inside the workspace. -/
theorem exists_inner (h : s.Perfect) (hp : p ∈ s.panels) (hsize : 2 ≤ s.size) :
    ∃ b side, p.rect.edge b side ≠ side.border := by
  by_contra hborder
  push Not at hborder
  obtain ⟨q, hq⟩ : ∃ q, q ∈ (s.erase p.id).panels := by
    refine List.exists_mem_of_length_pos ?_
    have := size_erase hp
    unfold size at *
    omega
  rw [mem_erase] at hq
  obtain ⟨o, ho⟩ := h.apart p hp q hq.1 fun heq => hq.2 (congrArg Panel.id heq.symm)
  have hstart : (p.rect.along o).start = 0 := by
    have hedge := hborder o.flip .before
    rwa [Rect.edge_flip] at hedge
  have hstop : (p.rect.along o).stop = 1 := by
    have hedge := hborder o.flip .after
    rwa [Rect.edge_flip] at hedge
  have hlt := Span.start_lt_stop (h.positive q hq.1 o)
  have hin := h.within q hq.1 o
  refine ho ⟨?_, ?_⟩
  · rw [hstart]
    exact hin.1.trans_lt hlt
  · rw [hstop]
    exact hlt.trans_le hin.2

/-- On the mesh a panel touches a side if it shares a stretch of the side and lies within its
extent. -/
theorem touches_iff (h : s.Perfect) (hm : s.OnMesh) (hp : p ∈ s.panels) (hq : q ∈ s.panels) :
    q.id ≠ p.id ∧ p.rect.sideTouched q.rect b = some side ↔
      p.rect.Borders q.rect b side ∧ (p.rect.along b).Includes (q.rect.along b) := by
  rw [Rect.sideTouched_iff (hm p hp) (hm q hq) (h.positive p hp _) (h.positive q hq _)]
  constructor
  · rintro ⟨-, hin, hedge⟩
    exact ⟨⟨hedge, hin.meets (h.positive q hq b)⟩, hin⟩
  · rintro ⟨hborders, hin⟩
    exact ⟨fun heq => h.ne_of_borders hp hborders (eq_of_id_eq hq hp heq), hin, hborders.1⟩

/-- On the mesh the panels of a flank are those that share a stretch of the side and lie within its
extent. -/
theorem mem_flank_iff (h : s.Perfect) (hm : s.OnMesh) (hp : p ∈ s.panels) :
    q ∈ ((s.erase p.id).flank p b side).panels ↔
      q ∈ s.panels ∧ p.rect.Borders q.rect b side ∧ (p.rect.along b).Includes (q.rect.along b) := by
  rw [mem_flank, mem_erase, and_assoc]
  refine and_congr_right fun hq => ?_
  rw [and_congr_right fun hne => and_iff_right hne, h.touches_iff hm hp hq]

theorem flank_covered (h : s.Perfect) (hm : s.OnMesh) (hp : p ∈ s.panels) :
    Near ((s.erase p.id).flank p b side).covered (p.rect.along b).extent ↔
      (((s.erase p.id).flank p b side).panels.map fun q => (q.rect.along b).extent).sum =
        (p.rect.along b).extent := by
  unfold Flank.covered
  rw [sum_eq_list_sum, flank_boundary]
  refine OnMesh.near_iff (OnMesh.list_sum fun x hx => ?_) ((hm p hp).along b).2
  obtain ⟨q, hq, rfl⟩ := List.mem_map.1 hx
  exact ((hm q ((h.mem_flank_iff hm hp).1 hq).1).along b).2

/-- The extents of a flank add up to that of the panel if and only if the flank covers the side. -/
theorem cover_iff_flank_sum (h : s.Perfect) (hm : s.OnMesh) (hp : p ∈ s.panels) :
    (∀ t : ℝ, p.rect.lower b < t → t < p.rect.upper b →
      ∃ q ∈ ((s.erase p.id).flank p b side).panels, q.rect.lower b ≤ t ∧ t ≤ q.rect.upper b) ↔
      (((s.erase p.id).flank p b side).panels.map fun q => (q.rect.along b).extent).sum =
        (p.rect.along b).extent := by
  have hmem : ∀ q, q ∈ ((s.erase p.id).flank p b side).panels ↔ _ :=
    fun _ => h.mem_flank_iff hm hp
  refine Span.cover_iff_sum ?_ (h.positive p hp b) (fun q hq => ?_) (fun q hq => ?_)
    fun q hq k hk hne hmeets => ?_
  · rw [flank_panels]
    exact (nodup_panels _).filter _
  · exact h.positive q ((hmem q).1 hq).1 b
  · exact ((hmem q).1 hq).2.2
  · exact hne (h.eq_of_borders ((hmem q).1 hq).1 ((hmem k).1 hk).1 ((hmem q).1 hq).2.1
      ((hmem k).1 hk).2.1 hmeets)

/-- **The neighbours on a side can take the area of a panel if and only if the side is flush.** -/
theorem usable_iff_flush (h : s.Perfect) (hm : s.OnMesh) (hp : p ∈ s.panels) :
    ((s.erase p.id).flank p b side).Usable p.rect ↔ s.Flush p.rect b side := by
  have hmem : ∀ q, q ∈ ((s.erase p.id).flank p b side).panels ↔ _ :=
    fun _ => h.mem_flank_iff hm hp
  unfold Flank.Usable
  rw [flank_boundary, h.flank_covered hm hp, ← h.cover_iff_flank_sum hm hp]
  constructor
  · rintro ⟨hne, hcover⟩
    constructor
    · obtain ⟨q, hq⟩ := List.exists_mem_of_ne_nil _ hne
      exact h.inner_of_borders ((hmem q).1 hq).1 ((hmem q).1 hq).2.1
    · intro q hq hborders
      obtain ⟨x, hpx, hqx⟩ := hborders.2.exists_inside (h.positive p hp b) (h.positive q hq b)
      -- a panel of the flank covers a point inside the stretch, so it is the same panel
      obtain ⟨k, hk, hlow, hupp⟩ := hcover x (Rat.cast_lt.2 hpx.1) (Rat.cast_lt.2 hpx.2)
      obtain ⟨hks, hkb, hkin⟩ := (hmem k).1 hk
      have hmeets : (q.rect.along b).Meets (k.rect.along b) :=
        ⟨hqx.1.trans_le (Rat.cast_le.1 hupp), (Rat.cast_le.1 hlow).trans_lt hqx.2⟩
      rw [h.eq_of_borders hq hks hborders hkb hmeets]
      exact hkin
  · rintro ⟨hinner, hflush⟩
    have hcover : ∀ t : ℝ, p.rect.lower b < t → t < p.rect.upper b →
        ∃ q ∈ ((s.erase p.id).flank p b side).panels, q.rect.lower b ≤ t ∧ t ≤ q.rect.upper b := by
      intro t hlow hupp
      obtain ⟨q, hq, hborders, ht⟩ := h.exists_borders hp hinner ⟨hlow, hupp⟩
      exact ⟨q, (hmem q).2 ⟨hq, hborders, hflush q hq hborders⟩, ht⟩
    refine ⟨?_, hcover⟩
    obtain ⟨t, hlow, hupp⟩ := exists_between (Rect.lower_lt_upper (h.positive p hp) b)
    obtain ⟨q, hq, -⟩ := hcover t hlow hupp
    exact List.ne_nil_of_mem hq

/-- **There are no heirs if and only if no side of the panel is flush.** -/
theorem heirs?_eq_none_iff_flush (h : s.Perfect) (hm : s.OnMesh) (hp : p ∈ s.panels) :
    (s.erase p.id).heirs? p = none ↔ ∀ b side, ¬ s.Flush p.rect b side := by
  rw [heirs?_eq_none_iff]
  exact forall_congr' fun b => forall_congr' fun side => not_congr (h.usable_iff_flush hm hp)

end Perfect

end Layout

end Mosaic
