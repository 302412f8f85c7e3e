import Mathlib.Order.Compare
import Mosaic.Proofs.Division

/-!
# Comparing finite doubles

Finite doubles are compared as the numbers that they stand for.  Whole multiples of `cell` are far
enough apart to be told apart by the tolerance, whatever their size; an infinite result compares
with them as any large number does.

* `le_iff_of_represents`, `lt_iff_of_represents`: the plain comparisons.
* `Represents.eq_of_ne`: a number that is not zero is represented by one double.
* `near_iff`, `atMost_iff`, `below_iff`: the comparisons up to the tolerance.
* `not_atMost_of_notBelow`: a result that may be infinite.
-/

namespace Mosaic

open Coordinate Float.Model Float.Model.UnpackedFloat

namespace Binary64

variable {x : UnpackedFloat} {q r : ℚ} {a b : Float}

/-! ### Comparisons of finite doubles -/

/-- The canonical magnitude with the larger exponent is the larger one. -/
theorem magnitude_lt {m m' : ℕ} {e e' : ℤ} (h : Canonical m e) (h' : Canonical m' e')
    (hlt : e < e') : (m : ℚ) * 2 ^ e < m' * 2 ^ e' := by
  have hle := h.le
  have hfull := h'.full.resolve_right (by omega)
  calc (m : ℚ) * 2 ^ e < 2 ^ 53 * 2 ^ e := by
        refine mul_lt_mul_of_pos_right ?_ (two_pow_pos e)
        exact_mod_cast h.lt
    _ = 2 ^ 52 * 2 ^ (e + 1) := by
        rw [zpow_add_one₀ (by norm_num)]
        ring
    _ ≤ 2 ^ 52 * 2 ^ e' := by
        refine mul_le_mul_of_nonneg_left ?_ (by norm_num)
        exact zpow_le_zpow_right₀ (by norm_num) (by omega)
    _ ≤ m' * 2 ^ e' := by
        refine mul_le_mul_of_nonneg_right ?_ (two_pow_pos e').le
        exact_mod_cast hfull

/-- Only one canonical magnitude stands for a number. -/
theorem Canonical.eq_of_magnitude_eq {m m' : ℕ} {e e' : ℤ} (h : Canonical m e)
    (h' : Canonical m' e') (heq : (m : ℚ) * 2 ^ e = m' * 2 ^ e') : m = m' ∧ e = e' := by
  rcases lt_trichotomy e e' with hlt | rfl | hlt
  · exact absurd heq (magnitude_lt h h' hlt).ne
  · have hm := mul_right_cancel₀ (two_pow_pos e).ne' heq
    exact ⟨by exact_mod_cast hm, rfl⟩
  · exact absurd heq (magnitude_lt h' h hlt).ne'

/-- Canonical magnitudes are compared by their exponents first. -/
theorem compare_magnitude {m m' : ℕ} {e e' : ℤ} (h : Canonical m e) (h' : Canonical m' e') :
    (compare e e').then (compare m m') = compare ((m : ℚ) * 2 ^ e) (m' * 2 ^ e') := by
  rcases lt_trichotomy e e' with hlt | rfl | hlt
  · rw [compare_lt_iff_lt.2 hlt, compare_lt_iff_lt.2 (magnitude_lt h h' hlt)]
    rfl
  · rw [compare_eq_iff_eq.2 rfl, Ordering.eq_then]
    have hpos := two_pow_pos e
    rcases lt_trichotomy m m' with hlt | rfl | hlt
    · rw [compare_lt_iff_lt.2 hlt, compare_lt_iff_lt.2]
      exact mul_lt_mul_of_pos_right (by exact_mod_cast hlt) hpos
    · rw [compare_eq_iff_eq.2 rfl, compare_eq_iff_eq.2 rfl]
    · rw [compare_gt_iff_gt.2 hlt, compare_gt_iff_gt.2]
      exact mul_lt_mul_of_pos_right (by exact_mod_cast hlt) hpos
  · rw [compare_gt_iff_gt.2 hlt, compare_gt_iff_gt.2 (magnitude_lt h' h hlt)]
    rfl

theorem compare_neg_neg (x y : ℚ) : compare (-x) (-y) = (compare x y).swap := by
  rcases lt_trichotomy x y with hlt | rfl | hlt
  · rw [compare_lt_iff_lt.2 hlt, compare_gt_iff_gt.2 (neg_lt_neg hlt)]
    rfl
  · rw [compare_eq_iff_eq.2 rfl, compare_eq_iff_eq.2 rfl]
    rfl
  · rw [compare_gt_iff_gt.2 hlt, compare_lt_iff_lt.2 (neg_lt_neg hlt)]
    rfl

theorem negative_value (m : ℕ) (e : ℤ) :
    ((Sign.negative.apply m : ℤ) : ℚ) * 2 ^ e = -(m * 2 ^ e) := by
  change ((-(m : ℤ) : ℤ) : ℚ) * 2 ^ e = _
  rw [Int.cast_neg, neg_mul]
  rfl

/-- Signs are compared before magnitudes, and negative numbers by their magnitudes the other way. -/
theorem compare_finite (s t : Sign) {m m' : ℕ} {e e' : ℤ} (hm : 0 < m) (hm' : 0 < m')
    (h : Canonical m e) (h' : Canonical m' e') :
    (UnpackedFloat.finite s m e hm).compare (.finite t m' e' hm') =
      some (compare ((s.apply m : ℚ) * 2 ^ e) (t.apply m' * 2 ^ e')) := by
  have hmagnitude := compare_magnitude h h'
  have hneg : -((m : ℚ) * 2 ^ e) < 0 := neg_lt_zero.2 (magnitude_pos hm)
  have hneg' : -((m' : ℚ) * 2 ^ e') < 0 := neg_lt_zero.2 (magnitude_pos hm')
  cases s with
  | negative =>
    cases t with
    | negative =>
      rw [negative_value, negative_value, compare_neg_neg, ← hmagnitude]
      rfl
    | positive =>
      rw [negative_value]
      refine congrArg some (compare_lt_iff_lt.2 ?_).symm
      exact hneg.trans (magnitude_pos hm')
  | positive =>
    cases t with
    | negative =>
      rw [negative_value]
      refine congrArg some (compare_gt_iff_gt.2 ?_).symm
      exact hneg'.trans (magnitude_pos hm)
    | positive => exact congrArg some hmagnitude

/-- Finite doubles are compared as numbers. -/
theorem compare_parts (ha : Represents a q) (hb : Represents b r) :
    (parts a).compare (parts b) = some (compare q r) := by
  rcases represents_iff.1 ha with ⟨s, hx, rfl⟩ | ⟨s, m, e, hm, hx, hcanonical, -, rfl⟩
  · rcases represents_iff.1 hb with ⟨t, hy, rfl⟩ | ⟨t, m', e', hm', hy, -, -, rfl⟩
    · rw [hx, hy, compare_eq_iff_eq.2 rfl]
      rfl
    · rw [hx, hy]
      cases t with
      | negative =>
        rw [negative_value, compare_gt_iff_gt.2 (neg_lt_zero.2 (magnitude_pos hm'))]
        rfl
      | positive =>
        refine congrArg some (compare_lt_iff_lt.2 ?_).symm
        exact magnitude_pos hm'
  · rcases represents_iff.1 hb with ⟨t, hy, rfl⟩ | ⟨t, m', e', hm', hy, hcanonical', -, rfl⟩
    · rw [hx, hy]
      cases s with
      | negative =>
        rw [negative_value, compare_lt_iff_lt.2 (neg_lt_zero.2 (magnitude_pos hm))]
        rfl
      | positive =>
        refine congrArg some (compare_gt_iff_gt.2 ?_).symm
        exact magnitude_pos hm
    · rw [hx, hy]
      exact compare_finite s t hm hm' hcanonical hcanonical'

theorem lt_iff : a < b ↔ (parts a).lt (parts b) := by
  change decide ((parts a).lt (parts b) = true) = true ↔ _
  rw [decide_eq_true_eq]

theorem le_iff_of_represents (ha : Represents a q) (hb : Represents b r) : a ≤ b ↔ q ≤ r := by
  rw [le_iff, UnpackedFloat.le, compare_parts ha hb]
  change (compare q r).isLE = true ↔ q ≤ r
  exact Ordering.isLE_iff_ne_gt.trans compare_le_iff_le

theorem lt_iff_of_represents (ha : Represents a q) (hb : Represents b r) : a < b ↔ q < r := by
  rw [lt_iff, UnpackedFloat.lt, compare_parts ha hb]
  rcases lt_trichotomy q r with hlt | rfl | hlt
  · rw [compare_lt_iff_lt.2 hlt]
    exact iff_of_true rfl hlt
  · rw [compare_eq_iff_eq.2 rfl]
    exact iff_of_false nofun (lt_irrefl q)
  · rw [compare_gt_iff_gt.2 hlt]
    exact iff_of_false nofun hlt.asymm

/-- **A number that is not zero is represented by one double.** -/
theorem Represents.eq_of_ne (ha : Represents a q) (hb : Represents b q) (hq : q ≠ 0) : a = b := by
  rcases represents_iff.1 ha with ⟨s, -, rfl⟩ | ⟨s, m, e, hm, hx, hcanonical, -, rfl⟩
  · exact absurd rfl hq
  rcases represents_iff.1 hb with ⟨t, -, hzero⟩ | ⟨t, m', e', hm', hy, hcanonical', -, heq⟩
  · exact absurd hzero hq
  have hsign : s = t := by
    have hpos := magnitude_pos (e := e) hm
    have hpos' := magnitude_pos (e := e') hm'
    cases s with
    | negative =>
      cases t with
      | negative => rfl
      | positive =>
        rw [negative_value] at heq
        exact absurd heq ((neg_lt_zero.2 hpos).trans hpos').ne
    | positive =>
      cases t with
      | negative =>
        rw [negative_value] at heq
        exact absurd heq ((neg_lt_zero.2 hpos').trans hpos).ne'
      | positive => rfl
  subst hsign
  have hmagnitude : (m : ℚ) * 2 ^ e = m' * 2 ^ e' := by
    rw [← abs_apply_mul s, heq, abs_apply_mul]
  obtain ⟨rfl, rfl⟩ := hcanonical.eq_of_magnitude_eq hcanonical' hmagnitude
  rw [← ofParts_parts a, ← ofParts_parts b, hx, hy]

/-! ### Comparisons with infinity -/

theorem parts_cases (a : Float) :
    (∃ q, Represents a q) ∨ (∃ s, parts a = .infinity s) ∨ parts a = .notANumber := by
  unfold Represents
  cases h : parts a with
  | notANumber => exact Or.inr (Or.inr rfl)
  | infinity s => exact Or.inr (Or.inl ⟨s, rfl⟩)
  | zero s => exact Or.inl ⟨0, rfl⟩
  | finite s m e hm => exact Or.inl ⟨_, rfl⟩

theorem compare_positive_infinity (hb : Represents b r) :
    (UnpackedFloat.infinity .positive).compare (parts b) = some .gt := by
  rcases represents_iff.1 hb with ⟨t, hy, -⟩ | ⟨t, m, e, hm, hy, -⟩ <;> rw [hy] <;> rfl

theorem compare_negative_infinity (hb : Represents b r) :
    (UnpackedFloat.infinity .negative).compare (parts b) = some .lt := by
  rcases represents_iff.1 hb with ⟨t, hy, -⟩ | ⟨t, m, e, hm, hy, -⟩ <;> rw [hy] <;> rfl

theorem le_of_lt (h : a < b) : a ≤ b := by
  rw [lt_iff, UnpackedFloat.lt, beq_iff_eq] at h
  rw [le_iff, UnpackedFloat.le, h]
  rfl

/-- A double is at most a finite one if what it stands for is. -/
theorem le_iff_notAbove (hb : Represents b r) : a ≤ b ↔ NotAbove (parts a) r := by
  rcases parts_cases a with ⟨q, ha⟩ | ⟨s, ha⟩ | ha
  · rw [le_iff_of_represents ha hb]
    constructor
    · exact fun hle => Or.inr ⟨q, ha, hle⟩
    · rintro (hinf | ⟨q', ha', hle⟩)
      · unfold Represents at ha
        rw [hinf] at ha
        exact ha.elim
      · rwa [ha.unique ha']
  · rw [le_iff, UnpackedFloat.le, ha]
    cases s with
    | negative =>
      rw [compare_negative_infinity hb]
      exact iff_of_true rfl (Or.inl rfl)
    | positive =>
      rw [compare_positive_infinity hb]
      refine iff_of_false nofun ?_
      rintro (hinf | ⟨q', ha', -⟩)
      · cases hinf
      · exact ha'
  · rw [le_iff, UnpackedFloat.le, ha]
    refine iff_of_false nofun ?_
    rintro (hinf | ⟨q', ha', -⟩)
    · cases hinf
    · exact ha'

theorem NotBelow.not_notAbove (h : NotBelow x q) (hlt : r < q) : ¬ NotAbove x r := by
  rintro (rfl | ⟨v, hv, hle⟩)
  · rcases h with hinf | ⟨u, hu, -⟩
    · cases hinf
    · exact hu
  · rcases h with rfl | ⟨u, hu, hle'⟩
    · exact hv
    · obtain rfl := hu.unique hv
      exact absurd (hle'.trans hle) (not_le.2 hlt)

/-! ### The tolerance -/

/-- The number that the tolerance stands for. -/
def toleranceValue : ℚ := 4722366482869645 * 2 ^ (-72 : ℤ)

/-- The area of a cell of the grid, which is larger than the tolerance. -/
def cell : ℚ := 2 ^ (-18 : ℤ)

/-- The number is a whole multiple of the area of a cell. -/
def OnCells (q : ℚ) : Prop := ∃ k : ℤ, q = k * cell

theorem represents_tolerance : Represents tolerance toleranceValue := by
  have hparts : parts tolerance = .finite .positive 4722366482869645 (-72) (by decide) := rfl
  unfold Represents
  rw [hparts]
  rfl

theorem represents_zero : Represents 0 0 := by
  unfold Represents
  rw [parts_zero]
  rfl

theorem represents_one : Represents 1 1 := by
  unfold Represents
  rw [parts_one]
  change (1 : ℚ) = ((4503599627370496 : ℕ) : ℤ) * 2 ^ (-52 : ℤ)
  norm_num

theorem toleranceValue_pos : 0 < toleranceValue := by
  norm_num [toleranceValue]

theorem toleranceValue_lt_cell : toleranceValue < cell := by
  norm_num [toleranceValue, cell]

theorem cell_pos : 0 < cell := by
  norm_num [cell]

namespace OnCells

theorem representable (h : OnCells q) (hq : 0 ≤ q) (hle : q ≤ 2) : Representable q := by
  obtain ⟨k, rfl⟩ := h
  rw [← abs_of_nonneg hq] at hle
  exact representable_of_abs_lt (hle.trans_lt (by norm_num)) (by decide) (by decide)

theorem zero : OnCells 0 := ⟨0, by simp⟩

theorem self : OnCells cell := ⟨1, by rw [Int.cast_one, one_mul]⟩

theorem one : OnCells 1 := ⟨2 ^ 18, by norm_num [cell]⟩

theorem add (hq : OnCells q) (hr : OnCells r) : OnCells (q + r) := by
  obtain ⟨k, rfl⟩ := hq
  obtain ⟨l, rfl⟩ := hr
  exact ⟨k + l, by push_cast; ring⟩

theorem sub (hq : OnCells q) (hr : OnCells r) : OnCells (q - r) := by
  obtain ⟨k, rfl⟩ := hq
  obtain ⟨l, rfl⟩ := hr
  exact ⟨k - l, by push_cast; ring⟩

/-- No positive multiple is smaller than the area of a cell. -/
theorem cell_le (h : OnCells q) (hq : 0 < q) : cell ≤ q := by
  obtain ⟨k, rfl⟩ := h
  have hk : (0 : ℚ) < k := pos_of_mul_pos_left hq cell_pos.le
  have hone : (1 : ℚ) ≤ k := by exact_mod_cast hk
  exact le_mul_of_one_le_left cell_pos.le hone

end OnCells

theorem sub_le_tolerance (ha : Represents a q) (hb : Represents b r) (h : q ≤ r) :
    a - b ≤ tolerance := by
  rw [le_iff_notAbove represents_tolerance]
  refine (rounds_sub ha hb _ represents_tolerance.representable).2 ?_
  exact (sub_nonpos.2 h).trans toleranceValue_pos.le

theorem representable_cell : Representable cell :=
  OnCells.self.representable cell_pos.le (by norm_num [cell])

theorem NotBelow.sub (ha : NotBelow (parts a) q) (hb : Represents b r) (h : cell ≤ q - r) :
    NotBelow (parts (a - b)) cell := by
  rcases ha with ha | ⟨u, hu, hle⟩
  · have hsub : UnpackedFloat.sub .binary64 (.infinity .positive) (parts b) =
        .infinity .positive := by
      rcases represents_iff.1 hb with ⟨t, hy, -⟩ | ⟨t, m, e, hm, hy, -⟩ <;> rw [hy] <;> rfl
    refine Or.inl ?_
    rw [sub_eq, ha, hsub]
    rfl
  · exact (rounds_sub hu hb cell representable_cell).1 (h.trans (sub_le_sub_right hle r))

/-- A double that is larger by the area of a cell, infinite or not, is not near. -/
theorem not_near_of_notBelow (ha : NotBelow (parts a) q) (hb : Represents b r)
    (h : cell ≤ q - r) : ¬ Near a b := by
  rintro ⟨hle, -⟩
  rw [le_iff_notAbove represents_tolerance] at hle
  exact (ha.sub hb h).not_notAbove toleranceValue_lt_cell hle

theorem not_atMost_of_notBelow (ha : NotBelow (parts a) q) (hb : Represents b r)
    (h : cell ≤ q - r) : ¬ AtMost a b := by
  rintro (hlt | hnear)
  · have hle := (le_iff_notAbove hb).1 (le_of_lt hlt)
    exact ha.not_notAbove (sub_pos.1 (cell_pos.trans_le h)) hle
  · exact not_near_of_notBelow ha hb h hnear

section OnCells

variable (ha : Represents a q) (hb : Represents b r) (hq : OnCells q) (hr : OnCells r)
include ha hb hq hr

/-- Multiples of the area of a cell are near only if they are equal. -/
theorem near_iff : Near a b ↔ q = r := by
  constructor
  · intro hnear
    rcases lt_trichotomy q r with hlt | heq | hlt
    · refine absurd hnear.symm (not_near_of_notBelow (Or.inr ⟨r, hb, le_rfl⟩) ha ?_)
      exact (hr.sub hq).cell_le (sub_pos.2 hlt)
    · exact heq
    · refine absurd hnear (not_near_of_notBelow (Or.inr ⟨q, ha, le_rfl⟩) hb ?_)
      exact (hq.sub hr).cell_le (sub_pos.2 hlt)
  · rintro rfl
    exact ⟨sub_le_tolerance ha hb le_rfl, sub_le_tolerance hb ha le_rfl⟩

theorem atMost_iff : AtMost a b ↔ q ≤ r := by
  unfold AtMost
  rw [near_iff ha hb hq hr, lt_iff_of_represents ha hb, le_iff_lt_or_eq]

theorem below_iff : Below a b ↔ q < r := by
  unfold Below
  rw [near_iff ha hb hq hr, lt_iff_of_represents ha hb]
  exact and_iff_left_of_imp ne_of_lt

end OnCells

end Binary64

end Mosaic
