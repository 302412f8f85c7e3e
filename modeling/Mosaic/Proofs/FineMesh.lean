import Mosaic.Proofs.ExactSamples

/-!
# The fine mesh

Products of numbers on the mesh and middles between them lie on a finer mesh, where near numbers
need not be equal.  But no multiple of its width lies between the tolerance of exact arithmetic and
the double that stands for it, so the comparisons of doubles are still those of their numbers.

* `OnFineMesh q`: the number is a multiple of the square of the width of the mesh.
* `Binary64.represents_sum`: sums are exact up to two.
* `Binary64.near_iff_of_onFineMesh`, `Binary64.compareNear_eq`: the comparisons.
-/

namespace Mosaic

open Coordinate

/-! ### Multiples of the square of the width -/

/-- The number is a whole multiple of the square of the width of the mesh. -/
def OnFineMesh (q : ℚ) : Prop := ∃ k : ℤ, q = k * mesh ^ 2

theorem OnMesh.mul {a b : ℚ} (ha : OnMesh a) (hb : OnMesh b) : OnFineMesh (a * b) := by
  obtain ⟨k, rfl⟩ := ha
  obtain ⟨l, rfl⟩ := hb
  exact ⟨k * l, by push_cast; ring⟩

theorem OnMesh.onFineMesh {a : ℚ} (h : OnMesh a) : OnFineMesh a := by
  have hmul := h.mul OnMesh.one
  rwa [mul_one] at hmul

theorem OnMesh.onFineMesh_half {a : ℚ} (h : OnMesh a) : OnFineMesh (half a) := by
  obtain ⟨k, rfl⟩ := h
  refine ⟨262144 * k, ?_⟩
  rw [half_eq_div_two]
  unfold mesh
  push_cast
  ring

namespace OnFineMesh

variable {a b : ℚ}

theorem zero : OnFineMesh 0 := OnMesh.zero.onFineMesh

theorem add (ha : OnFineMesh a) (hb : OnFineMesh b) : OnFineMesh (a + b) := by
  obtain ⟨k, rfl⟩ := ha
  obtain ⟨l, rfl⟩ := hb
  exact ⟨k + l, by push_cast; ring⟩

theorem sub (ha : OnFineMesh a) (hb : OnFineMesh b) : OnFineMesh (a - b) := by
  obtain ⟨k, rfl⟩ := ha
  obtain ⟨l, rfl⟩ := hb
  exact ⟨k - l, by push_cast; ring⟩

end OnFineMesh

namespace Binary64

variable {a b : Float} {q r : ℚ}

theorem representable_of_onFineMesh (h : OnFineMesh q) (hle : |q| ≤ 2) : Representable q := by
  obtain ⟨k, rfl⟩ := h
  rw [show mesh ^ 2 = 2 ^ (-38 : ℤ) by norm_num [mesh]] at hle ⊢
  exact representable_of_abs_lt (hle.trans_lt (by norm_num)) (by decide) (by decide)

/-- **A sum on the fine mesh is exact up to two.** -/
theorem represents_sum {β : Type} {f : β → Float} {g : β → ℚ} {l : List β}
    (hf : ∀ x ∈ l, Represents (f x) (g x)) (hg : ∀ x ∈ l, OnFineMesh (g x) ∧ 0 ≤ g x)
    (hle : (l.map g).sum ≤ 2) :
    Represents (Coordinate.sum (l.map f)) (l.map g).sum ∧ OnFineMesh (l.map g).sum := by
  have hsum := represents_foldl (fun _ _ => OnFineMesh.add)
    (fun q h hq hle => representable_of_onFineMesh h (by rwa [abs_of_nonneg hq])) hf hg
    represents_emptySum OnFineMesh.zero le_rfl (by rwa [zero_add])
  rwa [zero_add] at hsum

/-- No multiple lies between the two tolerances. -/
theorem le_toleranceValue_iff (h : OnFineMesh q) : q ≤ toleranceValue ↔ q ≤ tolerance := by
  obtain ⟨k, rfl⟩ := h
  have hpos : (0 : ℚ) < mesh ^ 2 := pow_pos mesh_pos 2
  have hsteps : ∀ t : ℚ, 274877 * mesh ^ 2 ≤ t → t < 274878 * mesh ^ 2 →
      (k * mesh ^ 2 ≤ t ↔ k ≤ 274877) := by
    intro t hlow hupp
    constructor
    · intro hle
      have hlt : (k : ℚ) < 274878 := lt_of_mul_lt_mul_right (hle.trans_lt hupp) hpos.le
      exact Int.lt_add_one_iff.1 (by exact_mod_cast hlt)
    · intro hle
      have hcast : (k : ℚ) ≤ 274877 := by exact_mod_cast hle
      exact (mul_le_mul_of_nonneg_right hcast hpos.le).trans hlow
  have htolerance : (tolerance : ℚ) = 1 / 1000000 := rfl
  rw [hsteps, hsteps]
  · rw [htolerance]
    norm_num [mesh]
  · rw [htolerance]
    norm_num [mesh]
  · norm_num [mesh, toleranceValue]
  · norm_num [mesh, toleranceValue]

section Comparisons

variable (ha : Represents a q) (hb : Represents b r) (hq : OnFineMesh q) (hr : OnFineMesh r)
  (hle : |q - r| ≤ 2)
include ha hb hq hr hle

/-- **Nearness on the fine mesh is nearness of the numbers.** -/
theorem near_iff_of_onFineMesh : Near a b ↔ Near q r := by
  have hleft := (rounds_sub ha hb).denotes (representable_of_onFineMesh (hq.sub hr) hle)
  have hright := (rounds_sub hb ha).denotes
    (representable_of_onFineMesh (hr.sub hq) (by rwa [abs_sub_comm]))
  unfold Near
  rw [le_iff_of_represents hleft represents_tolerance, le_toleranceValue_iff (hq.sub hr),
    le_iff_of_represents hright represents_tolerance, le_toleranceValue_iff (hr.sub hq)]

/-- So is the order that takes near numbers as the same. -/
theorem compareNear_eq : compareNear a b = compareNear q r := by
  have hnear := near_iff_of_onFineMesh ha hb hq hr hle
  unfold compareNear
  by_cases h : Near q r
  · rw [if_pos (hnear.2 h), if_pos h]
  · have hne : q ≠ r := by
      rintro rfl
      exact h (near_refl q)
    have hprecedes : precedes a b = precedes q r := by
      rw [Bool.eq_iff_iff]
      exact (precedes_iff ha hb hne).trans decide_eq_true_iff.symm
    have hprecedes' : precedes b a = precedes r q := by
      rw [Bool.eq_iff_iff]
      exact (precedes_iff hb ha hne.symm).trans decide_eq_true_iff.symm
    rw [if_neg (fun hab => h (hnear.1 hab)), if_neg h, hprecedes, hprecedes']

end Comparisons

end Binary64

end Mosaic
