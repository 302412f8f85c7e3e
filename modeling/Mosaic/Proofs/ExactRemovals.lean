import Mosaic.Proofs.ExactCandidates
import Mosaic.Proofs.Correspondence
import Mosaic.Proofs.WholeNumbers

/-!
# Exact removals

Which neighbours take over a removed panel is decided by a sum of extents that is compared with an
edge, by sums of areas, and by a quotient that is compared with a whole number.  On the mesh in the
workspace the sums that count are exact: the extents of a usable flank add up to the edge, and so
its area is at most the area of the workspace.  The quotient is rounded, but it is whole, or further
from whole numbers than the tolerance, since the divisor is the joint extent of two spans that touch
each other in the workspace.

* `Span.twins_values`: twins.
* `Flank.usable_values`, `Flank.isTwin_values`, `Flank.compare_values`: what the rules ask of a
  flank.
* `Layout.heirs?_values`, `Layout.remove_values`: removals.
* `Layout.operations_values`: all operations on layouts.
-/

namespace Mosaic

open Coordinate Binary64

/-! ### Twins -/

namespace Binary64

variable {q r : ℚ}

/-- A quotient of numbers on the mesh is whole, or one width of the mesh away from all whole
numbers. -/
theorem whole_or_mesh_le (hq : OnMesh q) (hr : OnMesh r) (hpos : 0 < r) (hle : r ≤ 1) :
    (∃ k : ℤ, q / r = k) ∨ ∀ k : ℤ, mesh ≤ |q / r - k| := by
  rw [or_iff_not_imp_left]
  intro hwhole k
  have hmul : OnMesh (k * r) := by
    obtain ⟨l, rfl⟩ := hr
    exact ⟨k * l, by push_cast; ring⟩
  have hsub : q / r - k = (q - k * r) / r := by field_simp
  rw [hsub, abs_div, abs_of_pos hpos]
  rcases eq_zero_or_mesh_le (hq.sub hmul) with hzero | hlarge
  · exact absurd ⟨k, (div_eq_iff hpos.ne').2 (sub_eq_zero.1 hzero)⟩ hwhole
  · calc mesh ≤ |q - k * r| := hlarge
      _ ≤ |q - k * r| / r := le_div_self (abs_nonneg _) hpos hle

/-- A quotient of numbers on the mesh in the workspace has room beside its places. -/
theorem div_le_two_pow (hq : q ≤ 1) (hr : OnMesh r) (hpos : 0 < r) : q / r ≤ 2 ^ 19 := by
  have hmesh := hr.mesh_le hpos
  rw [div_le_iff₀ hpos]
  calc q ≤ 1 := hq
    _ = 2 ^ 19 * mesh := by norm_num [mesh]
    _ ≤ 2 ^ 19 * r := mul_le_mul_of_nonneg_left hmesh (by norm_num)

end Binary64

namespace Span

variable {s t : Span Float} (hs : s.OnUnitMesh) (ht : t.OnUnitMesh)
include hs ht

theorem near_extent_values :
    Near s.values.extent t.values.extent ↔ Near s.extent t.extent := by
  have hsle := abs_le.1 hs.abs_extent_le
  have htle := abs_le.1 ht.abs_extent_le
  refine (near_iff_of_onFineMesh hs.extent ht.extent hs.onMesh.2.onFineMesh
    ht.onMesh.2.onFineMesh ?_).symm
  exact abs_le.2 ⟨by linarith, by linarith⟩

/-- The place of two spans among the multiples of their joint extent, rounded once. -/
theorem near_round_slots (hpos : 0 < s.values.extent) (hle : 2 * s.values.extent ≤ 1) :
    Near (least s.values.start t.values.start / twice s.values.extent)
        (Coordinate.round (least s.values.start t.values.start / twice s.values.extent)) ↔
      Near (least s.start t.start / twice s.extent)
        (Coordinate.round (least s.start t.start / twice s.extent)) := by
  obtain ⟨hleast, hvalue⟩ := hs.ends.1.least ht.ends.1
  have hdouble : Mosaic.OnMesh (2 * s.values.extent) := by
    rw [two_mul]
    exact hs.onMesh.2.add hs.onMesh.2
  have hpos' : 0 < 2 * s.values.extent := by linarith
  have htwice : Represents (twice s.extent) (2 * s.values.extent) := by
    refine (rounds_mul represents_two hs.extent).denotes (representable_of_onMesh hdouble ?_)
    rw [abs_of_pos hpos']
    linarith
  have hslots := rounds_div hleast.represents htwice hpos'.ne'
  have hnonneg := div_nonneg hleast.mem.1 hpos'.le
  have hnear := near_round_iff hslots hnonneg (div_le_two_pow hleast.mem.2 hdouble hpos')
    (whole_or_mesh_le hleast.onMesh hdouble hpos' hle)
  rw [hvalue] at hnear
  rw [twice_eq_two_mul]
  exact hnear.symm

/-- **Whether spans that touch each other are twins is exact.** -/
theorem twins_values
    (htouch : s.values.stop = t.values.start ∨ t.values.stop = s.values.start) :
    s.values.Twins t.values ↔ s.Twins t := by
  have hwide : s.values.extent ≤ tolerance ↔ s.extent ≤ tolerance := by
    rw [le_iff_of_represents hs.extent represents_tolerance,
      le_toleranceValue_iff hs.onMesh.2.onFineMesh]
  unfold Twins
  rw [← hwide, ← near_extent_values hs ht]
  refine and_congr_right fun hextent => and_congr_right fun hnear => ?_
  have htolerance : (0 : ℚ) < tolerance := by change (0 : ℚ) < 1 / 1000000; norm_num
  have hpos : 0 < s.values.extent := htolerance.trans (not_le.1 hextent)
  refine near_round_slots hs ht hpos ?_
  -- the two spans lie beside each other in the workspace
  have heq : s.values.extent = t.values.extent := (hs.onMesh.2.near_iff ht.onMesh.2).1 hnear
  have hsmem := hs.start_mem
  have htmem := ht.start_mem
  have hsstop := hs.stop_mem
  have htstop := ht.stop_mem
  rw [stop_eq] at hsstop htstop
  rw [stop_eq, stop_eq] at htouch
  rcases htouch with htouch | htouch <;> linarith

end Span

/-! ### Flanks -/

/-- Rectangles that touch have a stop at the start of the other. -/
theorem Rect.eq_of_sideTouched {r q : Rect Float} (hr : ∀ o, (r.along o).OnUnitMesh)
    (hq : ∀ o, (q.along o).OnUnitMesh) {b : Orientation} {side : Side}
    (h : r.sideTouched q b = some side) :
    (r.along b.flip).values.stop = (q.along b.flip).values.start ∨
      (q.along b.flip).values.stop = (r.along b.flip).values.start := by
  have hr' := (hr b.flip).onMesh
  have hq' := (hq b.flip).onMesh
  have hbefore := (near_stop_start_values hq hr b.flip).2
  have hafter := (near_start_stop_values hq hr b.flip).2
  rw [along_values, along_values, hq'.stop.near_iff hr'.1] at hbefore
  rw [along_values, along_values, hq'.1.near_iff hr'.stop] at hafter
  unfold sideTouched at h
  split at h
  · split at h
    · exact Or.inr (hbefore ‹_›)
    · split at h
      · exact Or.inl (hafter ‹_›).symm
      · cases h
  · cases h

/-- The flank with the numbers of its panels. -/
def Flank.values (f : Flank Float) : Flank ℚ :=
  ⟨f.boundary, f.side, f.panels.map Panel.values⟩

namespace Flank

/-- The panels of the flank and the removed rectangle lie on the mesh in the workspace, and none of
them has a negative extent. -/
structure OnUnitMesh (f : Flank Float) (removed : Rect Float) : Prop where
  panels : ∀ q ∈ f.panels, ∀ o, (q.rect.along o).OnUnitMesh ∧ 0 ≤ (q.rect.along o).values.extent
  removed : ∀ o, (removed.along o).OnUnitMesh ∧ 0 ≤ (removed.along o).values.extent

variable {f g : Flank Float} {removed : Rect Float}

theorem covered_values (f : Flank Float) : f.values.covered =
    (f.panels.map fun q => (q.rect.along f.boundary).values.extent).sum := by
  unfold covered values
  rw [sum_eq_list_sum, List.map_map]
  refine congrArg _ (List.map_congr_left fun q _ => ?_)
  exact congrArg Span.extent (q.rect.along_values f.boundary)

theorem area_values (f : Flank Float) :
    f.values.area = (f.panels.map fun q => q.rect.values.area).sum := by
  unfold area values
  rw [sum_eq_list_sum, List.map_map]
  rfl

namespace OnUnitMesh

variable (h : f.OnUnitMesh removed)
include h

/-- A flank covers the edge exactly if it does so up to the tolerance. -/
theorem near_covered_iff : Near f.covered (removed.along f.boundary).extent ↔
    f.values.covered = (removed.along f.boundary).values.extent := by
  have hextent := fun q hq => (h.panels q hq f.boundary).1.extent
  have hmesh := fun q hq => (h.panels q hq f.boundary).1.onMesh.2
  have hpos := fun q hq => (h.panels q hq f.boundary).2
  obtain ⟨hremoved, hrpos⟩ := h.removed f.boundary
  have hle := (abs_le.1 hremoved.abs_extent_le).2
  rw [covered_values]
  constructor
  · exact sum_eq_of_near hextent (fun q hq => ⟨hmesh q hq, hpos q hq⟩) hremoved.extent
      hremoved.onMesh.2 ⟨hrpos, hle⟩
  · intro heq
    obtain ⟨hsum, -⟩ := represents_sum hextent (fun q hq => ⟨(hmesh q hq).onFineMesh, hpos q hq⟩)
      (by rw [heq]; linarith)
    exact ⟨sub_le_tolerance hsum hremoved.extent heq.le,
      sub_le_tolerance hremoved.extent hsum heq.ge⟩

/-- **Whether a flank is usable is exact.** -/
theorem usable_values : f.values.Usable removed.values ↔ f.Usable removed := by
  have hmesh : Mosaic.OnMesh f.values.covered := by
    rw [covered_values]
    exact OnMesh.list_sum (List.forall_mem_map.2 fun q hq => (h.panels q hq _).1.onMesh.2)
  unfold Usable
  rw [h.near_covered_iff, ← (hmesh.near_iff (h.removed f.boundary).1.onMesh.2),
    ← Rect.along_values]
  exact and_congr_left' (not_congr List.map_eq_nil_iff)

/-- The area of one panel of a flank is exact, and not larger than its edge. -/
theorem represents_area_panel {q : Panel Float} (hq : q ∈ f.panels) :
    Represents q.rect.area q.rect.values.area ∧ OnFineMesh q.rect.values.area ∧
      0 ≤ q.rect.values.area ∧
        q.rect.values.area ≤ (q.rect.along f.boundary).values.extent := by
  have hle := fun o => (abs_le.1 (h.panels q hq o).1.abs_extent_le).2
  have hpos := fun o => (h.panels q hq o).2
  have hfine : OnFineMesh q.rect.values.area :=
    (h.panels q hq .horizontal).1.onMesh.2.mul (h.panels q hq .vertical).1.onMesh.2
  have hnonneg : 0 ≤ q.rect.values.area := mul_nonneg (hpos .horizontal) (hpos .vertical)
  have hextent : q.rect.values.area ≤ (q.rect.along f.boundary).values.extent := by
    rw [Rect.area_eq q.rect.values f.boundary, Rect.along_values, Rect.along_values]
    exact mul_le_of_le_one_right (hpos _) (hle _)
  have habs : |q.rect.values.area| ≤ 2 := by
    rw [abs_of_nonneg hnonneg]
    linarith [hle f.boundary]
  have hround := rounds_mul (h.panels q hq .horizontal).1.extent (h.panels q hq .vertical).1.extent
  exact ⟨hround.denotes (representable_of_onFineMesh hfine habs), hfine, hnonneg, hextent⟩

/-- **The area of a usable flank is exact**, and at most that of the workspace. -/
theorem represents_area (hu : f.Usable removed) : Represents f.area f.values.area ∧
    OnFineMesh f.values.area ∧ 0 ≤ f.values.area ∧ f.values.area ≤ 1 := by
  have hpanel := fun q hq => h.represents_area_panel (q := q) hq
  have hnonneg : 0 ≤ f.values.area := by
    rw [area_values]
    exact List.sum_nonneg (List.forall_mem_map.2 fun q hq => (hpanel q hq).2.2.1)
  have hle : f.values.area ≤ 1 := by
    calc f.values.area
        = (f.panels.map fun q => q.rect.values.area).sum := f.area_values
      _ ≤ (f.panels.map fun q => (q.rect.along f.boundary).values.extent).sum :=
          List.sum_le_sum fun q hq => (hpanel q hq).2.2.2
      _ = f.values.covered := f.covered_values.symm
      _ = (removed.along f.boundary).values.extent := h.near_covered_iff.1 hu.2
      _ ≤ 1 := (abs_le.1 (h.removed f.boundary).1.abs_extent_le).2
  obtain ⟨hsum, hfine⟩ := represents_sum (fun q hq => (hpanel q hq).1)
    (fun q hq => ⟨(hpanel q hq).2.1, (hpanel q hq).2.2.1⟩) (by rw [← area_values]; linarith)
  rw [← area_values] at hsum hfine
  exact ⟨hsum, hfine, hnonneg, hle⟩

/-- **The order of usable flanks is exact.** -/
theorem compare_values (h' : g.OnUnitMesh removed) (hu : f.Usable removed)
    (hu' : g.Usable removed) : f.values.compare g.values = f.compare g := by
  obtain ⟨hf, hffine, hf0, hf1⟩ := h.represents_area hu
  obtain ⟨hg, hgfine, hg0, hg1⟩ := h'.represents_area hu'
  have harea := compareNear_eq hf hg hffine hgfine (abs_le.2 ⟨by linarith, by linarith⟩)
  unfold compare
  rw [← harea]
  unfold values
  simp only [List.length_map]

/-- **Whether a flank is a twin is exact.** -/
theorem isTwin_values {side : Side}
    (htouch : ∀ q ∈ f.panels, removed.sideTouched q.rect f.boundary = some side) :
    f.values.IsTwin removed.values ↔ f.IsTwin removed := by
  have htwin : ∀ q ∈ f.panels,
      ((removed.values.along f.boundary.flip).Twins (q.rect.values.along f.boundary.flip) ↔
        (removed.along f.boundary.flip).Twins (q.rect.along f.boundary.flip)) := by
    intro q hq
    have hr := fun o => (h.removed o).1
    have hq' := fun o => (h.panels q hq o).1
    rw [Rect.along_values, Rect.along_values]
    exact Span.twins_values (hr _) (hq' _) (Rect.eq_of_sideTouched hr hq' (htouch q hq))
  unfold IsTwin values
  generalize f.panels = ps at htwin
  rcases ps with _ | ⟨q, _ | ⟨k, qs⟩⟩
  · rfl
  · exact htwin q List.mem_cons_self
  · rfl

end OnUnitMesh

end Flank

/-! ### Heirs -/

namespace Layout

variable {s rest : Layout Float} {p : Panel Float} {f : Flank Float} {b : Orientation}
  {side : Side}

/-- No panel has a negative extent. -/
def Upright (s : Layout Float) : Prop :=
  ∀ p ∈ s.panels, ∀ o, 0 ≤ (p.rect.along o).values.extent

/-- **Flanks are exact.** -/
theorem flank_values (hs : rest.OnUnitMesh) (hp : ∀ o, (p.rect.along o).OnUnitMesh)
    (b : Orientation) (side : Side) :
    rest.values.flank p.values b side = (rest.flank p b side).values := by
  unfold flank Flank.values
  rw [neighbours_values hs hp, List.filterMap_map, List.map_filterMap]
  refine congrArg _ (List.filterMap_congr fun n _ => ?_)
  rw [Function.comp_apply, apply_ite (Option.map Panel.values)]
  rfl

theorem onUnitMesh_flank (hs : rest.OnUnitMesh) (hpos : rest.Upright)
    (hp : ∀ o, (p.rect.along o).OnUnitMesh ∧ 0 ≤ (p.rect.along o).values.extent) :
    (rest.flank p b side).OnUnitMesh p.rect :=
  ⟨fun q hq o => ⟨hs q (mem_flank.1 hq).1 o, hpos q (mem_flank.1 hq).1 o⟩, hp⟩

section Heirs

variable (hs : rest.OnUnitMesh) (hpos : rest.Upright)
  (hp : ∀ o, (p.rect.along o).OnUnitMesh ∧ 0 ≤ (p.rect.along o).values.extent)
include hs hpos hp

theorem flanksMatch_values :
    FlanksMatch (fun f g => (∃ b side, f = rest.flank p b side) ∧ g = f.values) (fun b => b)
      rest p rest.values p.values where
  orientation := rfl
  flip _ := rfl
  flank b side := ⟨⟨b, side, rfl⟩, flank_values hs (fun o => (hp o).1) b side⟩
  usable := by
    rintro _ _ ⟨⟨b, side, rfl⟩, rfl⟩
    exact (onUnitMesh_flank hs hpos hp).usable_values.symm
  isTwin := by
    rintro _ _ ⟨⟨b, side, rfl⟩, rfl⟩ -
    exact ((onUnitMesh_flank hs hpos hp).isTwin_values
      fun q hq => (mem_flank.1 hq).2.2).symm
  compare := by
    rintro _ _ _ _ ⟨⟨b, side, rfl⟩, rfl⟩ ⟨⟨b', side', rfl⟩, rfl⟩ hu hu'
    exact ((onUnitMesh_flank hs hpos hp).compare_values (onUnitMesh_flank hs hpos hp) hu hu').symm

/-- **Heirs are exact.** -/
theorem heirs?_values : rest.values.heirs? p.values = (rest.heirs? p).map Flank.values := by
  have hrel := (flanksMatch_values hs hpos hp).heirs?
  generalize rest.heirs? p = heirs, rest.values.heirs? p.values = heirs' at hrel ⊢
  cases hrel with
  | none => rfl
  | some h => exact congrArg some h.2.2

end Heirs

/-! ### Removals -/

theorem values_handOver {r : Rect Float} (hf : ∀ q ∈ f.panels, ∀ o, (q.rect.along o).OnUnitMesh)
    (hr : ∀ o, (r.along o).OnUnitMesh) (rest : Layout Float) :
    (rest.handOver r f).values = rest.values.handOver r.values f.values := by
  unfold handOver Flank.values
  rw [values_putAll, List.map_map, List.map_map]
  refine congrArg _ (List.map_congr_left fun q hq => ?_)
  exact congrArg (Panel.mk q.id) (Rect.values_growOver (hf q hq) hr f.boundary)

theorem values_single (id : PanelId) (o : Orientation) :
    (single id o : Layout Float).values = single id o := by
  refine (values_put _ _).trans ?_
  have hunit : (Rect.unit : Rect Float).values = .unit := by
    unfold Rect.unit Rect.values
    rw [represents_zero.value_eq, represents_one.value_eq]
  exact congrArg (fun r : Rect ℚ => (empty o).put ⟨id, r⟩) hunit

/-- **Removals are exact.**  Removing a panel from the exact layout gives the exact removal, or the
same refusal. -/
theorem remove_values (hs : s.OnUnitMesh) (hpos : s.Upright) (id : PanelId) :
    s.values.remove id = (s.remove id).map values := by
  cases hfind : s.find? id with
  | none =>
    have hfind' : s.values.find? id = none := by rw [find?_values, hfind, Option.map_none]
    rw [remove_of_find?_eq_none hfind, remove_of_find?_eq_none hfind']
    rfl
  | some r =>
    have hp : (⟨id, r⟩ : Panel Float) ∈ s.panels := find?_eq_some_iff.1 hfind
    have hsub : ∀ q ∈ (s.erase id).panels, q ∈ s.panels := fun q hq => (mem_erase.1 hq).1
    have hheirs : (s.erase id).values.heirs? (Panel.values ⟨id, r⟩) =
        ((s.erase id).heirs? ⟨id, r⟩).map Flank.values :=
      heirs?_values (fun q hq => hs q (hsub q hq)) (fun q hq => hpos q (hsub q hq))
        fun o => ⟨hs _ hp o, hpos _ hp o⟩
    have heq := remove_eq hp
    have heq' := remove_eq (s := s.values) (List.mem_map_of_mem hp)
    change s.values.remove id = _ at heq'
    rw [show (Panel.values ⟨id, r⟩).id = id from rfl, ← values_erase, hheirs, panels_values] at heq'
    rw [heq, heq']
    rcases (s.erase id).panels with _ | ⟨p, _ | ⟨q, ps⟩⟩
    · rfl
    · exact congrArg Except.ok (values_single p.id s.orientation).symm
    · generalize hf : (s.erase id).heirs? ⟨id, r⟩ = heirs
      cases heirs with
      | none => rfl
      | some f =>
        obtain ⟨b, side, rfl, -⟩ := exists_of_heirs? hf
        refine congrArg Except.ok (values_handOver (fun q hq => ?_) (hs _ hp) _).symm
        exact hs q (hsub q (mem_flank.1 hq).1)

theorem exists_remove_of_values {id : PanelId} {u : Layout ℚ} (hs : s.OnUnitMesh) (hpos : s.Upright)
    (h : s.values.remove id = .ok u) : ∃ t, s.remove id = .ok t ∧ t.values = u := by
  rw [remove_values hs hpos] at h
  cases ht : s.remove id with
  | error e =>
    rw [ht] at h
    cases h
  | ok t =>
    rw [ht] at h
    exact ⟨t, rfl, Except.ok.inj h⟩

/-! ### All operations -/

/-- **Double precision is exact on the mesh.**  On the mesh in the workspace the operations on a
layout in double precision are, number by number, those of exact arithmetic: the counts of bands and
lines, the candidates in order, the panel that gets its label, removals, and the handles in order,
each with the same refusals. -/
theorem operations_values (hs : s.OnUnitMesh) :
    (∀ p ∈ s.panels, ∀ line, s.values.bandCount line p.values = s.bandCount line p ∧
        s.values.crossings line p.rect.values = s.crossings line p.rect) ∧
      (∀ limits, s.values.candidates limits = (s.candidates limits).map (·.map values)) ∧
      (∀ id, s.values.commit id = (s.commit id).map values) ∧
      (s.Upright → ∀ id, s.values.remove id = (s.remove id).map values) ∧
      ∀ workspace, s.values.handles workspace = (s.handles workspace).map Handle.values := by
  refine ⟨fun p hp line => ⟨bandCount_values hs (hs p hp) line, ?_⟩, candidates_values hs,
    s.commit_values, fun hpos id => remove_values hs hpos id,
    fun workspace => (handles_values hs workspace).1⟩
  exact (crossings_values hs (hs p hp line.flip)).symm

end Layout

end Mosaic
