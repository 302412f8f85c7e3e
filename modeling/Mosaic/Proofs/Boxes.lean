import Mathlib.MeasureTheory.Measure.Lebesgue.Basic

/-!
# Boxes that fill a box

A finite family of boxes inside a box, no two of which overlap, covers it if and only if the volumes
add up to its volume.  `cover_iff_sum_volume` says this in any number of dimensions; it is used on
the line, for the neighbours along one edge, and in the plane, for the panels of a layout.  Both
directions are comparisons of Lebesgue measure: a part that is left free is open, so it is either
empty or has a positive measure.
-/

namespace Mosaic.Boxes

open MeasureTheory Set

variable {κ ι : Type}

/-- The interior of a box, given by its least and its greatest corner. -/
def interior (lo hi : κ → ℝ) : Set (κ → ℝ) :=
  Set.pi univ fun k => Ioo (lo k) (hi k)

theorem mem_interior {lo hi v : κ → ℝ} : v ∈ interior lo hi ↔ ∀ k, lo k < v k ∧ v k < hi k := by
  simp [interior, Set.mem_pi]

theorem interior_subset_closed (lo hi : κ → ℝ) : interior lo hi ⊆ Icc lo hi := by
  intro v hv
  rw [mem_interior] at hv
  exact ⟨fun k => (hv k).1.le, fun k => (hv k).2.le⟩

section Closure

variable {I : Finset ι} {lo hi : ι → κ → ℝ} {a b : κ → ℝ}

/-- Closed boxes that cover a set cover its closure. -/
theorem exists_of_mem_closure {S : Set (κ → ℝ)} (h : ∀ v ∈ S, ∃ i ∈ I, lo i ≤ v ∧ v ≤ hi i)
    {v : κ → ℝ} (hv : v ∈ closure S) : ∃ i ∈ I, lo i ≤ v ∧ v ≤ hi i := by
  have hclosed : IsClosed (⋃ i ∈ I, Icc (lo i) (hi i)) :=
    isClosed_biUnion_finset fun _ _ => isClosed_Icc
  have hsub : S ⊆ ⋃ i ∈ I, Icc (lo i) (hi i) := fun w hw => by
    obtain ⟨i, hi', hwi⟩ := h w hw
    exact mem_biUnion hi' hwi
  obtain ⟨i, hi', hvi⟩ := mem_iUnion₂.1 (closure_minimal hsub hclosed hv)
  exact ⟨i, hi', hvi⟩

theorem mem_closure_interior (hab : ∀ k, a k < b k) {v : κ → ℝ} (hv : ∀ k, a k ≤ v k ∧ v k ≤ b k) :
    v ∈ closure (interior a b) := by
  rw [interior, closure_pi_set]
  intro k _
  change v k ∈ closure (Ioo (a k) (b k))
  rw [closure_Ioo (hab k).ne]
  exact hv k

theorem iUnion_interior_subset (hinside : ∀ i ∈ I, a ≤ lo i ∧ hi i ≤ b) :
    ⋃ i ∈ I, interior (lo i) (hi i) ⊆ interior a b := by
  refine iUnion₂_subset fun i hi' v hv => ?_
  rw [mem_interior] at hv ⊢
  intro k
  exact ⟨((hinside i hi').1 k).trans_lt (hv k).1, (hv k).2.trans_le ((hinside i hi').2 k)⟩

end Closure

variable [Fintype κ]

theorem isOpen_interior (lo hi : κ → ℝ) : IsOpen (interior lo hi) :=
  isOpen_set_pi finite_univ fun _ _ => isOpen_Ioo

theorem volume_interior {lo hi : κ → ℝ} (h : lo ≤ hi) :
    volume (interior lo hi) = ENNReal.ofReal (∏ k, (hi k - lo k)) := by
  rw [interior, Real.volume_pi_Ioo, ENNReal.ofReal_prod_of_nonneg]
  exact fun k _ => sub_nonneg.2 (h k)

theorem volume_closed {lo hi : κ → ℝ} (h : lo ≤ hi) :
    volume (Icc lo hi) = ENNReal.ofReal (∏ k, (hi k - lo k)) := by
  rw [Real.volume_Icc_pi, ENNReal.ofReal_prod_of_nonneg]
  exact fun k _ => sub_nonneg.2 (h k)

section Family

variable {I : Finset ι} {lo hi : ι → κ → ℝ} {a b : κ → ℝ}

theorem volume_iUnion_interior (hle : ∀ i ∈ I, lo i ≤ hi i)
    (hapart : ∀ i ∈ I, ∀ j ∈ I, i ≠ j → ∃ k, hi i k ≤ lo j k ∨ hi j k ≤ lo i k) :
    volume (⋃ i ∈ I, interior (lo i) (hi i)) =
      ENNReal.ofReal (∑ i ∈ I, ∏ k, (hi i k - lo i k)) := by
  have hdisjoint : (I : Set ι).PairwiseDisjoint fun i => interior (lo i) (hi i) := by
    intro i hi' j hj hij
    refine Set.disjoint_left.2 fun v hv hw => ?_
    rw [mem_interior] at hv hw
    obtain ⟨k, hk | hk⟩ := hapart i hi' j hj hij
    · linarith [(hv k).2, (hw k).1]
    · linarith [(hv k).1, (hw k).2]
  rw [measure_biUnion_finset hdisjoint fun i _ => (isOpen_interior _ _).measurableSet,
    Finset.sum_congr rfl fun i hi' => volume_interior (hle i hi'),
    ENNReal.ofReal_sum_of_nonneg]
  exact fun i hi' => Finset.prod_nonneg fun k _ => sub_nonneg.2 (hle i hi' k)

/-- Boxes that cover a box have at least its volume together. -/
theorem volume_le_of_cover (hle : ∀ i ∈ I, lo i ≤ hi i)
    (hcover : ∀ v, (∀ k, a k < v k ∧ v k < b k) → ∃ i ∈ I, lo i ≤ v ∧ v ≤ hi i) :
    volume (interior a b) ≤ ENNReal.ofReal (∑ i ∈ I, ∏ k, (hi i k - lo i k)) := by
  calc volume (interior a b)
      ≤ volume (⋃ i ∈ I, Icc (lo i) (hi i)) := by
        refine measure_mono fun v hv => ?_
        obtain ⟨i, hi', hv⟩ := hcover v (mem_interior.1 hv)
        exact mem_biUnion hi' hv
    _ ≤ ∑ i ∈ I, volume (Icc (lo i) (hi i)) := measure_biUnion_finset_le I _
    _ = ENNReal.ofReal (∑ i ∈ I, ∏ k, (hi i k - lo i k)) := by
        rw [Finset.sum_congr rfl fun i hi' => volume_closed (hle i hi'),
          ENNReal.ofReal_sum_of_nonneg]
        exact fun i hi' => Finset.prod_nonneg fun k _ => sub_nonneg.2 (hle i hi' k)

/-- Boxes inside a box that fill its volume cover it. -/
theorem cover_of_volume_eq (hsub : ⋃ i ∈ I, interior (lo i) (hi i) ⊆ interior a b)
    (heq : volume (⋃ i ∈ I, interior (lo i) (hi i)) = volume (interior a b))
    (hfinite : volume (interior a b) ≠ ⊤) {v : κ → ℝ} (hv : v ∈ interior a b) :
    ∃ i ∈ I, lo i ≤ v ∧ v ≤ hi i := by
  -- the points of the large box in no closed small box form an open null set
  have hopen : IsOpen (interior a b \ ⋃ i ∈ I, Icc (lo i) (hi i)) :=
    (isOpen_interior a b).sdiff (isClosed_biUnion_finset fun _ _ => isClosed_Icc)
  have hnull : volume (interior a b \ ⋃ i ∈ I, Icc (lo i) (hi i)) = 0 := by
    have hclosed : ⋃ i ∈ I, interior (lo i) (hi i) ⊆ ⋃ i ∈ I, Icc (lo i) (hi i) :=
      iUnion₂_mono fun i _ => interior_subset_closed _ _
    refine measure_mono_null (sdiff_subset_sdiff_right hclosed) ?_
    rw [measure_sdiff hsub, heq, tsub_self]
    · exact (Finset.measurableSet_biUnion I fun i _ =>
        (isOpen_interior _ _).measurableSet).nullMeasurableSet
    · rw [heq]
      exact hfinite
  by_contra hnone
  push Not at hnone
  have hempty := hopen.eq_empty_of_measure_zero hnull
  have hmem : v ∈ interior a b \ ⋃ i ∈ I, Icc (lo i) (hi i) := by
    refine ⟨hv, fun hv' => ?_⟩
    obtain ⟨i, hi', hvi⟩ := mem_iUnion₂.1 hv'
    exact hnone i hi' hvi.1 hvi.2
  rw [hempty] at hmem
  exact hmem

/-- Boxes without overlap inside a box have at most its volume together. -/
theorem sum_volume_le (lo hi : ι → κ → ℝ) (a b : κ → ℝ) (hab : a ≤ b)
    (hle : ∀ i ∈ I, lo i ≤ hi i) (hinside : ∀ i ∈ I, a ≤ lo i ∧ hi i ≤ b)
    (hapart : ∀ i ∈ I, ∀ j ∈ I, i ≠ j → ∃ k, hi i k ≤ lo j k ∨ hi j k ≤ lo i k) :
    ∑ i ∈ I, ∏ k, (hi i k - lo i k) ≤ ∏ k, (b k - a k) := by
  have hvolume := measure_mono (μ := volume) (iUnion_interior_subset hinside)
  rw [volume_iUnion_interior hle hapart, volume_interior hab] at hvolume
  exact (ENNReal.ofReal_le_ofReal_iff (Finset.prod_nonneg fun k _ => sub_nonneg.2 (hab k))).1 hvolume

/-- **Boxes without overlap cover a box if and only if their volumes add up to its volume.** -/
theorem cover_iff_sum_volume (lo hi : ι → κ → ℝ) (a b : κ → ℝ) (hab : a ≤ b)
    (hle : ∀ i ∈ I, lo i ≤ hi i) (hinside : ∀ i ∈ I, a ≤ lo i ∧ hi i ≤ b)
    (hapart : ∀ i ∈ I, ∀ j ∈ I, i ≠ j → ∃ k, hi i k ≤ lo j k ∨ hi j k ≤ lo i k) :
    (∀ v, (∀ k, a k < v k ∧ v k < b k) → ∃ i ∈ I, lo i ≤ v ∧ v ≤ hi i) ↔
      ∑ i ∈ I, ∏ k, (hi i k - lo i k) = ∏ k, (b k - a k) := by
  have hunion := volume_iUnion_interior hle hapart
  have hbox := volume_interior hab
  have hsub := iUnion_interior_subset hinside
  have hsum : 0 ≤ ∑ i ∈ I, ∏ k, (hi i k - lo i k) :=
    Finset.sum_nonneg fun i hi' => Finset.prod_nonneg fun k _ => sub_nonneg.2 (hle i hi' k)
  have hprod : 0 ≤ ∏ k, (b k - a k) := Finset.prod_nonneg fun k _ => sub_nonneg.2 (hab k)
  constructor
  · intro hcover
    have hfill := volume_le_of_cover hle hcover
    rw [← hunion] at hfill
    have heq := le_antisymm (measure_mono hsub) hfill
    rwa [hunion, hbox, ENNReal.ofReal_eq_ofReal_iff hsum hprod] at heq
  · intro heq v hv
    refine cover_of_volume_eq hsub ?_ ?_ (mem_interior.2 hv)
    · rw [hunion, hbox, heq]
    · rw [hbox]
      exact ENNReal.ofReal_ne_top

end Family

end Mosaic.Boxes
