import Mosaic.Proofs.ExactAreas
import Mosaic.Proofs.Sampling
import Mosaic.Proofs.TotalOrder

/-!
# Exact samples

The sampling of lines computes with doubles at every stage: edges are added up, compared, sorted by
their representation, thinned out up to the tolerance, and halved.  On the mesh in the workspace
each stage does to the doubles what the exact sampling does to their numbers, so the count of
crossings is the exact one, and that is the maximum over all lines.

* `Binary64.OnUnitMesh`: a finite double on the mesh, in the workspace.
* `Binary64.map_value_mergeSort`, `map_value_thin`, `map_value_midpoints`: the stages.
* `Span.map_value_samples`: the samples.
* `Layout.isGreatest_crossings`: crossings are the maximum over all real positions.
-/

namespace Mosaic

open Coordinate

/-! ### Doubles on the mesh in the workspace -/

namespace Binary64

/-- The double is finite and on the mesh, and lies in the workspace. -/
structure OnUnitMesh (a : Float) : Prop where
  represents : Represents a (value a)
  onMesh : OnMesh (value a)
  mem : 0 ≤ value a ∧ value a ≤ 1

variable {a b x : Float} {xs : List Float}

/-- Nearness of such doubles is nearness of their numbers, which is equality. -/
theorem OnUnitMesh.near_iff (ha : OnUnitMesh a) (hb : OnUnitMesh b) :
    Near a b ↔ Near (value a) (value b) := by
  rw [ha.onMesh.near_iff hb.onMesh]
  constructor
  · refine eq_of_near ha.represents hb.represents ha.onMesh hb.onMesh (abs_le.2 ⟨?_, ?_⟩)
    · linarith [ha.mem.1, hb.mem.2]
    · linarith [ha.mem.2, hb.mem.1]
  · intro heq
    exact ⟨sub_le_tolerance ha.represents hb.represents heq.le,
      sub_le_tolerance hb.represents ha.represents heq.ge⟩

/-- The middle between two such doubles is exact. -/
theorem OnUnitMesh.represents_half_add (ha : OnUnitMesh a) (hb : OnUnitMesh b) :
    Represents (half (a + b)) (half (value a + value b)) := by
  have hmesh := ha.onMesh.add hb.onMesh
  have hle : |value a + value b| ≤ 2 := by
    rw [abs_of_nonneg (add_nonneg ha.mem.1 hb.mem.1)]
    linarith [ha.mem.2, hb.mem.2]
  have hsum := (rounds_add ha.represents hb.represents).denotes (representable_of_onMesh hmesh hle)
  rw [half_eq_div_two]
  exact represents_half hsum ((eq_zero_or_mesh_le hmesh).imp_right two_pow_le_mesh.trans)

/-! ### The stages of sampling -/

/-- Sorting by the representation sorts the numbers. -/
theorem map_value_mergeSort (hxs : ∀ x ∈ xs, OnUnitMesh x) :
    (xs.mergeSort Coordinate.precedes).map value =
      (xs.map value).mergeSort Coordinate.precedes := by
  have hmem : ∀ x ∈ xs.mergeSort Coordinate.precedes, OnUnitMesh x :=
    fun x hx => hxs x ((List.mergeSort_perm _ _).mem_iff.1 hx)
  have hsorted : (xs.mergeSort fun a b : Float => decide (doubleRank a ≤ doubleRank b)).Pairwise
      fun a b => decide (doubleRank a ≤ doubleRank b) = true := by
    refine List.pairwise_mergeSort (fun a b c hab hbc => ?_) (fun a b => ?_) xs
    · exact decide_eq_true ((of_decide_eq_true hab).trans (of_decide_eq_true hbc))
    · simpa using le_total (doubleRank a) (doubleRank b)
  refine List.Perm.eq_of_pairwise (fun _ _ _ _ => le_antisymm) (List.pairwise_map.2 ?_)
    (Span.pairwise_mergeSort_precedes _) ?_
  · exact hsorted.imp_of_mem fun ha hb hab =>
      le_of_precedes (hmem _ ha).represents (hmem _ hb).represents hab
  · exact ((List.mergeSort_perm _ _).map value).trans (List.mergeSort_perm _ _).symm

theorem map_value_thin (hx : OnUnitMesh x) (hxs : ∀ y ∈ xs, OnUnitMesh y) :
    (Span.thin x xs).map value = Span.thin (value x) (xs.map value) := by
  induction xs generalizing x with
  | nil => rfl
  | cons y ys ih =>
    obtain ⟨hy, hys⟩ := List.forall_mem_cons.1 hxs
    rw [Span.thin, List.map_cons, Span.thin, ← ih hx hys, ← ih hy hys]
    simp only [hy.near_iff hx]
    split <;> rfl

theorem mem_of_mem_thin (h : a ∈ Span.thin x xs) : a ∈ x :: xs := by
  induction xs generalizing x with
  | nil => exact h
  | cons y ys ih =>
    rw [Span.thin] at h
    split at h
    · exact List.cons_subset_cons x (List.subset_cons_self y ys) (ih h)
    · rcases List.mem_cons.1 h with rfl | h
      · exact List.mem_cons_self
      · exact List.mem_cons_of_mem x (ih h)

/-- The middles are exact. -/
theorem map_value_midpoints (hxs : ∀ x ∈ xs, OnUnitMesh x) :
    (Span.midpoints xs).map value = Span.midpoints (xs.map value) ∧
      ∀ m ∈ Span.midpoints xs, Represents m (value m) := by
  induction xs with
  | nil => exact ⟨rfl, nofun⟩
  | cons x xs ih =>
    cases xs with
    | nil => exact ⟨rfl, nofun⟩
    | cons y rest =>
      obtain ⟨hx, hrest⟩ := List.forall_mem_cons.1 hxs
      obtain ⟨hmap, hmem⟩ := ih hrest
      have hmiddle := hx.represents_half_add (hrest y List.mem_cons_self)
      constructor
      · rw [Span.midpoints, List.map_cons, hmap, hmiddle.value_eq]
        rfl
      · exact List.forall_mem_cons.2 ⟨hmiddle.self, hmem⟩

end Binary64

open Binary64

/-! ### Samples -/

namespace Span

variable {s : Span Float} {others : List (Span Float)} {m : Float}

theorem OnUnitMesh.represents_stop (h : s.OnUnitMesh) : Represents s.stop s.values.stop := by
  have hle : |s.values.stop| ≤ 2 := by
    rw [abs_of_nonneg h.stop_mem.1]
    linarith [h.stop_mem.2]
  exact (rounds_add h.start h.extent).denotes (representable_of_onMesh h.onMesh.stop hle)

theorem OnUnitMesh.ends (h : s.OnUnitMesh) :
    Binary64.OnUnitMesh s.start ∧ Binary64.OnUnitMesh s.stop := by
  have hstop := h.represents_stop
  refine ⟨⟨h.start, h.onMesh.1, h.start_mem⟩, hstop.self, ?_, ?_⟩
  · rw [hstop.value_eq]
    exact h.onMesh.stop
  · rw [hstop.value_eq]
    exact h.stop_mem

theorem OnUnitMesh.crossedAt_iff (h : s.OnUnitMesh) (hm : Represents m (value m)) :
    s.CrossedAt m ↔ s.values.CrossedAt (value m) :=
  and_congr (lt_iff_of_represents h.start hm) (lt_iff_of_represents hm h.represents_stop)

section Samples

variable (hs : s.OnUnitMesh) (hothers : ∀ u ∈ others, u.OnUnitMesh)
include hothers

theorem onUnitMesh_ends {a : Float} (ha : a ∈ others.flatMap fun u => [u.start, u.stop]) :
    Binary64.OnUnitMesh a := by
  obtain ⟨u, hu, ha⟩ := List.mem_flatMap.1 ha
  obtain ⟨hstart, hstop⟩ := (hothers u hu).ends
  rcases List.mem_pair.1 ha with rfl | rfl
  · exact hstart
  · exact hstop

theorem map_value_ends : (others.flatMap fun u => [u.start, u.stop]).map value =
    (others.map values).flatMap fun u => [u.start, u.stop] := by
  rw [List.map_flatMap, List.flatMap_map]
  refine List.flatMap_congr fun u hu => ?_
  simp only [List.map_cons, List.map_nil, (hothers u hu).represents_stop.value_eq]
  rfl

include hs

/-- The edges that are sorted are those of the exact spans. -/
theorem map_value_edges :
    (∀ e ∈ s.start :: s.stop :: (others.flatMap fun u => [u.start, u.stop]).filter s.CrossedAt,
        Binary64.OnUnitMesh e) ∧
      (s.start :: s.stop :: (others.flatMap fun u => [u.start, u.stop]).filter s.CrossedAt).map
        value = s.values.edgesWithin (others.map values) := by
  obtain ⟨hstart, hstop⟩ := hs.ends
  constructor
  · refine List.forall_mem_cons.2 ⟨hstart, List.forall_mem_cons.2 ⟨hstop, fun e he => ?_⟩⟩
    exact onUnitMesh_ends hothers (List.mem_filter.1 he).1
  · unfold edgesWithin
    rw [← map_value_ends hothers, List.filter_map, List.map_cons, List.map_cons,
      hs.represents_stop.value_eq]
    refine congrArg (s.values.start :: s.values.stop :: List.map value ·) ?_
    refine List.filter_congr fun e he => ?_
    exact decide_eq_decide.2 (hs.crossedAt_iff (onUnitMesh_ends hothers he).represents)

/-- **The samples are exact.** -/
theorem map_value_samples :
    (s.samples others).map value = s.values.samples (others.map values) ∧
      ∀ m ∈ s.samples others, Represents m (value m) := by
  obtain ⟨hedges, hvalues⟩ := map_value_edges hs hothers
  have hsort := map_value_mergeSort hedges
  have hmem := fun e he => hedges e ((List.mergeSort_perm _ Coordinate.precedes).mem_iff.1 he)
  unfold edgesWithin at hvalues
  rw [hvalues] at hsort
  unfold samples
  dsimp only
  rw [← hsort]
  cases hlist : (s.start :: s.stop :: (others.flatMap fun u => [u.start, u.stop]).filter
      s.CrossedAt).mergeSort Coordinate.precedes with
  | nil => exact ⟨rfl, nofun⟩
  | cons x xs =>
    rw [hlist] at hmem
    obtain ⟨hx, hxs⟩ := List.forall_mem_cons.1 hmem
    have hmiddles := map_value_midpoints fun e he => hmem e (mem_of_mem_thin he)
    rwa [map_value_thin hx hxs] at hmiddles

end Samples

end Span

theorem Rect.onMesh_values {r : Rect Float} (h : ∀ o, (r.along o).OnUnitMesh) : r.values.OnMesh :=
  ⟨(h .horizontal).onMesh.1, (h .vertical).onMesh.1, (h .horizontal).onMesh.2,
    (h .vertical).onMesh.2⟩

/-! ### Crossings -/

namespace Layout

variable {s : Layout Float} {r : Rect Float} {line : Orientation} {m : Float}

theorem map_along_values (s : Layout Float) (o : Orientation) :
    s.values.panels.map (·.rect.along o) = (s.panels.map (·.rect.along o)).map Span.values := by
  unfold values
  rw [List.map_map, List.map_map]
  exact List.map_congr_left fun p _ => p.rect.along_values o

theorem OnUnitMesh.onMesh_values (hs : s.OnUnitMesh) : s.values.OnMesh :=
  forall_values.2 fun p hp => Rect.onMesh_values (hs p hp)

/-- A line at a finite position crosses the panels that it crosses exactly. -/
theorem crossedAt_values (hs : s.OnUnitMesh) (hm : Represents m (value m)) :
    s.crossedAt line m = s.values.crossedAt line (value m) := by
  unfold crossedAt values
  rw [List.countP_map]
  refine List.countP_congr fun p hp => ?_
  have hspan := (hs p hp line.flip).crossedAt_iff hm
  rw [← Rect.along_values] at hspan
  rw [Function.comp_apply, decide_eq_true_eq, decide_eq_true_eq]
  exact hspan

/-- The count of crossings is the exact one. -/
theorem crossings_values (hs : s.OnUnitMesh) (hr : (r.along line.flip).OnUnitMesh) :
    s.crossings line r = s.values.crossings line r.values := by
  obtain ⟨hsamples, hfinite⟩ := Span.map_value_samples hr
    (List.forall_mem_map.2 fun p hp => hs p hp line.flip)
  unfold crossings
  rw [map_along_values, Rect.along_values, ← hsamples, List.map_map]
  exact congrArg (List.foldl max 0)
    (List.map_congr_left fun m hm => crossedAt_values hs (hfinite m hm))

/-- **Crossings are exact.**  Take a layout in double precision whose panels lie on the mesh in the
workspace, and any such rectangle.  Its crossings are the maximum, over all real positions between
its two edges across the lines, of the number of panels that the line at the position crosses. -/
theorem isGreatest_crossings (hs : s.OnUnitMesh) (hr : ∀ o, (r.along o).OnUnitMesh)
    (line : Orientation) (hpos : 0 < (r.along line.flip).extent) :
    IsGreatest (s.values.lineCount line '' {x | r.values.CrossedBy line x})
      (s.crossings line r) := by
  rw [crossings_values hs (hr line.flip)]
  refine isGreatest_crossings_of_onMesh hs.onMesh_values (Rect.onMesh_values hr) ?_
  rw [Rect.along_values]
  exact (lt_iff_of_represents represents_zero (hr line.flip).extent).1 hpos

/-- A column, and the halves of another one, in double precision. -/
def columnBesideHalves : Layout Float :=
  (empty .horizontal).putAll [⟨⟨1⟩, ⟨0, 0, 0.5, 1⟩⟩, ⟨⟨2⟩, ⟨0.5, 0, 0.5, 0.5⟩⟩,
    ⟨⟨3⟩, ⟨0.5, 0.5, 0.5, 0.5⟩⟩]

theorem values_columnBesideHalves : columnBesideHalves.values = columnAndHalves := by
  decide +kernel

/-- A vertical line crosses the column, or both halves. -/
theorem isGreatest_crossings_columnBesideHalves :
    (columnBesideHalves.OnUnitMesh ∧ (∀ o, ((Rect.unit : Rect Float).along o).OnUnitMesh) ∧
      0 < ((Rect.unit : Rect Float).along (Orientation.flip .vertical)).extent) ∧
    columnBesideHalves.crossings .vertical .unit = 2 ∧
    IsGreatest (columnAndHalves.lineCount .vertical ''
      {x | (Rect.unit : Rect Float).values.CrossedBy .vertical x}) 2 := by
  have hs : columnBesideHalves.OnUnitMesh := by decide +kernel
  have hr : ∀ o, ((Rect.unit : Rect Float).along o).OnUnitMesh := by decide +kernel
  have hpos : 0 < ((Rect.unit : Rect Float).along (Orientation.flip .vertical)).extent := by
    decide +kernel
  have hcrossings : columnBesideHalves.crossings .vertical .unit = 2 := by
    have hunit : (Rect.unit : Rect Float).values = .unit := by decide +kernel
    rw [crossings_values hs (hr _), values_columnBesideHalves, hunit]
    cbv
  have hgreatest := isGreatest_crossings hs hr .vertical hpos
  rw [values_columnBesideHalves, hcrossings] at hgreatest
  exact ⟨⟨hs, hr, hpos⟩, hcrossings, hgreatest⟩

end Layout

end Mosaic
