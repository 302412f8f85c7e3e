import Mathlib.Algebra.Order.BigOperators.Group.List
import Mathlib.Data.Rat.Floor
import Mathlib.Tactic.Linarith
import Mathlib.Tactic.NormNum
import Mathlib.Tactic.Ring
import Mosaic.Coordinate.Rational
import Mosaic.Layout.Removal
import Mosaic.Layout.Validity

/-!
# Exact numbers and the mesh

Over the rational numbers the operations of a coordinate are the usual ones.  The tolerance is
harmless as long as all numbers are whole multiples of one width, the mesh, which is the smallest
power of two above the tolerance: two such numbers are near only if they are equal.

* `OnMesh q`: the number is a multiple of `mesh`.  Sums stay on the mesh.
* `OnMesh.near_iff`, `OnMesh.atMost_iff`: the comparisons become `=` and `≤`.
* `near_round_half_iff`: half of a whole number is near its rounding only if it is whole itself.
* `Span.Includes`, `Span.Meets`: what the comparisons of spans say on the mesh.
-/

namespace Mosaic

open Coordinate

/-! ### Arithmetic -/

section Arithmetic

variable (a b : ℚ)

theorem half_eq_div_two : half a = a / 2 := by
  unfold half
  norm_num

theorem twice_eq_two_mul : twice a = 2 * a := by
  unfold twice
  norm_num

theorem least_eq_min : least a b = min a b := by
  unfold least
  rcases lt_or_ge b a with h | h
  · rw [if_pos h, min_eq_right h.le]
  · rw [if_neg h.not_gt, if_pos le_rfl, min_eq_left h]

theorem greatest_eq_max : greatest a b = max a b := by
  unfold greatest
  rcases lt_or_ge a b with h | h
  · rw [if_pos h, max_eq_right h.le]
  · rw [if_neg h.not_gt, if_pos le_rfl, max_eq_left h]

theorem sum_eq_list_sum (xs : List ℚ) : Coordinate.sum xs = xs.sum := by
  rw [List.sum_eq_foldl]
  rfl

theorem near_refl : Near a a := by
  constructor <;> rw [sub_self] <;> exact (by norm_num : (0 : ℚ) ≤ 1 / 1000000)

variable {a b}

theorem atMost_of_le (h : a ≤ b) : AtMost a b := by
  rcases h.lt_or_eq with hlt | rfl
  · exact Or.inl hlt
  · exact Or.inr (near_refl a)

end Arithmetic

/-! ### Rounding -/

theorem exists_int_eq_round (q : ℚ) : ∃ k : ℤ, Coordinate.round q = k := by
  change ∃ k : ℤ, roundHalfAway q = k
  unfold roundHalfAway
  split
  · exact ⟨_, rfl⟩
  · exact ⟨-(-q + 1 / 2).floor, by push_cast; rfl⟩

theorem round_intCast (k : ℤ) : Coordinate.round (k : ℚ) = k := by
  have hfloor : ∀ m : ℤ, ((m : ℚ) + 1 / 2).floor = m := fun m => by
    change ⌊(m : ℚ) + 1 / 2⌋ = m
    rw [Int.floor_eq_iff]
    constructor <;> norm_num
  change roundHalfAway (k : ℚ) = k
  unfold roundHalfAway
  split
  · rw [hfloor]
  · rw [show -(k : ℚ) + 1 / 2 = ((-k : ℤ) : ℚ) + 1 / 2 by push_cast; rfl, hfloor]
    push_cast
    ring

/-- Half of a whole number is near its rounding only if it is whole itself. -/
theorem near_round_half_iff (n : ℤ) :
    Near ((n : ℚ) / 2) (Coordinate.round ((n : ℚ) / 2)) ↔ Even n := by
  constructor
  · intro h
    obtain ⟨k, hk⟩ := exists_int_eq_round ((n : ℚ) / 2)
    rw [hk] at h
    have hlow : (n : ℚ) / 2 - k ≤ 1 / 1000000 := h.1
    have hupp : k - (n : ℚ) / 2 ≤ 1 / 1000000 := h.2
    have h1 : (n : ℚ) < 2 * k + 1 := by linarith
    have h2 : (2 * k : ℚ) < n + 1 := by linarith
    have h1' : n < 2 * k + 1 := by exact_mod_cast h1
    have h2' : 2 * k < n + 1 := by exact_mod_cast h2
    exact ⟨k, by omega⟩
  · rintro ⟨k, rfl⟩
    rw [show ((k + k : ℤ) : ℚ) / 2 = k by push_cast; ring, round_intCast]
    exact near_refl _

/-! ### The mesh -/

/-- The width of the mesh, the smallest power of two above the tolerance. -/
def mesh : ℚ := 1 / 524288

/-- The number is a whole multiple of the width of the mesh. -/
def OnMesh (q : ℚ) : Prop := ∃ k : ℤ, q = k * mesh

theorem mesh_pos : 0 < mesh := by
  norm_num [mesh]

theorem tolerance_lt_mesh : (tolerance : ℚ) < mesh := by
  change (1 / 1000000 : ℚ) < 1 / 524288
  norm_num

namespace OnMesh

variable {a b : ℚ}

theorem zero : OnMesh 0 := ⟨0, by norm_num⟩

theorem one : OnMesh 1 := ⟨524288, by norm_num [mesh]⟩

theorem iff_den_eq_one : OnMesh a ↔ (a * 524288).den = 1 := by
  rw [Rat.den_eq_one_iff]
  constructor
  · rintro ⟨k, rfl⟩
    rw [show (k : ℚ) * mesh * 524288 = k by unfold mesh; ring]
    rfl
  · intro h
    refine ⟨(a * 524288).num, ?_⟩
    rw [h]
    unfold mesh
    ring

instance (a : ℚ) : Decidable (OnMesh a) :=
  decidable_of_iff _ iff_den_eq_one.symm

theorem add (ha : OnMesh a) (hb : OnMesh b) : OnMesh (a + b) := by
  obtain ⟨k, rfl⟩ := ha
  obtain ⟨l, rfl⟩ := hb
  exact ⟨k + l, by push_cast; ring⟩

theorem sub (ha : OnMesh a) (hb : OnMesh b) : OnMesh (a - b) := by
  obtain ⟨k, rfl⟩ := ha
  obtain ⟨l, rfl⟩ := hb
  exact ⟨k - l, by push_cast; ring⟩

theorem list_sum {xs : List ℚ} (h : ∀ x ∈ xs, OnMesh x) : OnMesh xs.sum := by
  induction xs with
  | nil => exact zero
  | cons x xs ih =>
    rw [List.sum_cons]
    exact (h x (by simp)).add (ih fun y hy => h y (List.mem_cons_of_mem x hy))

/-- The mesh has no positive number below its width. -/
theorem mesh_le (ha : OnMesh a) (hpos : 0 < a) : mesh ≤ a := by
  obtain ⟨k, rfl⟩ := ha
  have hk : (0 : ℚ) < k := pos_of_mul_pos_left hpos mesh_pos.le
  have hone : (1 : ℚ) ≤ k := by exact_mod_cast hk
  exact le_mul_of_one_le_left mesh_pos.le hone

/-- Two numbers on the mesh that differ by at most the tolerance are equal. -/
theorem near_iff (ha : OnMesh a) (hb : OnMesh b) : Near a b ↔ a = b := by
  constructor
  · rintro ⟨hab, hba⟩
    obtain ⟨k, rfl⟩ := ha
    obtain ⟨l, rfl⟩ := hb
    have hpos := mesh_pos
    -- the multiples differ by less than one in both directions
    have hkl : ((k - l : ℤ) : ℚ) < 1 := by
      have h : ((k - l : ℤ) : ℚ) * mesh < 1 * mesh := by
        push_cast
        linarith [tolerance_lt_mesh]
      exact lt_of_mul_lt_mul_right h hpos.le
    have hlk : ((l - k : ℤ) : ℚ) < 1 := by
      have h : ((l - k : ℤ) : ℚ) * mesh < 1 * mesh := by
        push_cast
        linarith [tolerance_lt_mesh]
      exact lt_of_mul_lt_mul_right h hpos.le
    have h1 : k - l < 1 := by exact_mod_cast hkl
    have h2 : l - k < 1 := by exact_mod_cast hlk
    rw [show k = l by omega]
  · rintro rfl
    exact near_refl a

theorem atMost_iff (ha : OnMesh a) (hb : OnMesh b) : AtMost a b ↔ a ≤ b := by
  unfold AtMost
  rw [near_iff ha hb, le_iff_lt_or_eq]

end OnMesh

/-! ### Spans on the mesh -/

namespace Span

/-- The span has a positive extent. -/
def Positive (s : Span ℚ) : Prop :=
  0 < s.extent

/-- The second span lies within the first, exactly. -/
def Includes (s t : Span ℚ) : Prop :=
  s.start ≤ t.start ∧ t.stop ≤ s.stop

/-- The spans have a stretch of positive length in common. -/
def Meets (s t : Span ℚ) : Prop :=
  s.start < t.stop ∧ t.start < s.stop

/-- Start and extent are on the mesh. -/
def OnMesh (s : Span ℚ) : Prop :=
  Mosaic.OnMesh s.start ∧ Mosaic.OnMesh s.extent

instance (s : Span ℚ) : Decidable s.Positive := inferInstanceAs (Decidable (_ < _))
instance (s t : Span ℚ) : Decidable (s.Includes t) := inferInstanceAs (Decidable (_ ∧ _))
instance (s t : Span ℚ) : Decidable (s.Meets t) := inferInstanceAs (Decidable (_ ∧ _))

variable {s t u : Span ℚ}

theorem stop_eq (s : Span ℚ) : s.stop = s.start + s.extent := rfl

theorem start_lt_stop (h : s.Positive) : s.start < s.stop :=
  lt_add_of_pos_right s.start h

theorem Meets.symm (h : s.Meets t) : t.Meets s :=
  ⟨h.2, h.1⟩

theorem not_meets_iff : ¬ s.Meets t ↔ t.stop ≤ s.start ∨ s.stop ≤ t.start := by
  unfold Meets
  rw [not_and_or, not_lt, not_lt]

theorem Includes.refl (s : Span ℚ) : s.Includes s :=
  ⟨le_rfl, le_rfl⟩

theorem Includes.trans (h : s.Includes t) (h' : t.Includes u) : s.Includes u :=
  ⟨h.1.trans h'.1, h'.2.trans h.2⟩

theorem Includes.meets (h : s.Includes t) (ht : t.Positive) : s.Meets t :=
  ⟨h.1.trans_lt (start_lt_stop ht), (start_lt_stop ht).trans_le h.2⟩

/-- Spans that meet have a number inside both. -/
theorem Meets.exists_inside (h : s.Meets t) (hs : s.Positive) (ht : t.Positive) :
    ∃ x, (s.start < x ∧ x < s.stop) ∧ t.start < x ∧ x < t.stop := by
  obtain ⟨x, hlow, hupp⟩ := exists_between (max_lt (lt_min (start_lt_stop hs) h.1)
    (lt_min h.2 (start_lt_stop ht)))
  rw [max_lt_iff] at hlow
  rw [lt_min_iff] at hupp
  exact ⟨x, ⟨hlow.1, hupp.1⟩, hlow.2, hupp.2⟩

theorem Meets.mono (h : s.Meets u) (ht : t.Includes u) : s.Meets t :=
  ⟨h.1.trans_le ht.2, ht.1.trans_lt h.2⟩

theorem eq_of_start_stop (hs : s.start = t.start) (he : s.stop = t.stop) : s = t := by
  have hext : s.extent = t.extent := by
    rw [stop_eq, stop_eq, hs] at he
    exact add_left_cancel he
  cases s
  cases t
  simp_all

theorem OnMesh.stop (h : s.OnMesh) : Mosaic.OnMesh s.stop :=
  h.1.add h.2

theorem covers_iff (hs : s.OnMesh) (ht : t.OnMesh) : s.Covers t ↔ s.Includes t := by
  unfold Covers Includes
  rw [hs.1.atMost_iff ht.1, ht.stop.atMost_iff hs.stop]

/-- Spans that meet in no stretch do not overlap, whatever the tolerance. -/
theorem Overlaps.meets (h : s.Overlaps t) : s.Meets t :=
  ⟨h.2.lt, h.1.lt⟩

end Span

/-! ### Rectangles and layouts on the mesh -/

/-- All four numbers are on the mesh. -/
def Rect.OnMesh (r : Rect ℚ) : Prop :=
  Mosaic.OnMesh r.x ∧ Mosaic.OnMesh r.y ∧ Mosaic.OnMesh r.width ∧ Mosaic.OnMesh r.height

instance (r : Rect ℚ) : Decidable r.OnMesh := inferInstanceAs (Decidable (_ ∧ _))

theorem Rect.OnMesh.along {r : Rect ℚ} (h : r.OnMesh) (o : Orientation) : (r.along o).OnMesh := by
  obtain ⟨hx, hy, hw, hh⟩ := h
  cases o
  · exact ⟨hx, hw⟩
  · exact ⟨hy, hh⟩

theorem Rect.area_eq (r : Rect ℚ) (o : Orientation) :
    r.area = (r.along o).extent * (r.along o.flip).extent := by
  cases o
  · rfl
  · exact mul_comm r.width r.height

theorem Rect.ext_along {α : Type} {r s : Rect α} (o : Orientation) (h : r.along o = s.along o)
    (h' : r.along o.flip = s.along o.flip) : r = s := by
  rw [← Rect.ofSpans_along o r, h, h', Rect.ofSpans_along]

/-- Every number of every panel is on the mesh. -/
def Layout.OnMesh (s : Layout ℚ) : Prop :=
  ∀ p ∈ s.panels, p.rect.OnMesh

instance (s : Layout ℚ) : Decidable s.OnMesh :=
  inferInstanceAs (Decidable (∀ p ∈ s.panels, p.rect.OnMesh))

end Mosaic
