import Mosaic.Proofs.Rounding

/-!
# Quotients of doubles

A quotient of mantissas is computed with as many places as rounding needs, or with all the places
above the smallest doubles.  What is left over is noted in the accuracy, so the quotient of finite
doubles is the exact one, rounded once.

* `exists_divCore_eq`: the places of a quotient, and how many there are.
* `rounds_div`: division rounds once.
* `rounds_half`, `represents_half`: one half of a double is rounded, and it is exact unless the
  double is among the smallest ones.
-/

namespace Mosaic

open Coordinate Float.Model Float.Model.UnpackedFloat

namespace Binary64

variable {m m' : ℕ} {e e' : ℤ} {q r : ℚ} {a b : Float}

/-- The whole part of a fraction approximates it to the accuracy that its remainder tells. -/
theorem approximates_div (n : ℕ) {d : ℕ} (hd : 0 < d) :
    Approximates (n / d) (accuracyOfFraction (n % d) d) ((n : ℚ) / d) := by
  have hpos : (0 : ℚ) < d := by exact_mod_cast hd
  refine ⟨Nat.cast_div_le, ?_, fun heq => ?_⟩
  · rw [div_lt_iff₀ hpos]
    have hlt := Nat.lt_mul_div_succ n hd
    rw [Nat.mul_comm] at hlt
    exact_mod_cast hlt
  · rw [div_eq_iff hpos.ne'] at heq
    have hmul : n = n / d * d := by exact_mod_cast heq
    have hzero : n % d = 0 := by
      have := Nat.div_add_mod' n d
      omega
    rw [hzero]
    rfl

/-- A quotient is computed to a power of two below which no place is kept: it fills a mantissa, or
it has all the places above the smallest doubles. -/
theorem exists_divCore_eq (hm : 0 < m) (hm' : 0 < m') (e e' : ℤ) :
    ∃ k : ℕ, divCore .binary64 m e m' e' =
        (m * 2 ^ k / m', e - e' - k, accuracyOfFraction (m * 2 ^ k % m') m') ∧
      e - e' - k ≤ target (m * 2 ^ k / m') (e - e' - k) := by
  have htarget : Format.binary64.targetExponent (totalExponent m e - totalExponent m' e') =
      max (m.log2 + e - (m'.log2 + e') - 53) (-1074) := by
    change max ((m.log2 : ℤ) + 1 + e - (m'.log2 + 1 + e') - 53) (-1074) = _
    congr 1
    omega
  obtain ⟨k, hk⟩ : ∃ k : ℕ, min (e - e') (max (m.log2 + e - (m'.log2 + e') - 53) (-1074)) =
      e - e' - k :=
    ⟨(e - e' - min (e - e') (max (m.log2 + e - (m'.log2 + e') - 53) (-1074))).toNat, by omega⟩
  refine ⟨k, ?_, ?_⟩
  · unfold divCore
    dsimp only
    rw [htarget, hk, Nat.shiftLeft_eq, show (e - e' - (e - e' - k)).toNat = k by omega]
  · by_cases hmin : e - e' - k ≤ -1074
    · exact hmin.trans (le_max_right _ _)
    · have hplaces : m'.log2 + 1 + 52 ≤ m.log2 + k := by omega
      have hfull : 2 ^ 52 ≤ m * 2 ^ k / m' := by
        rw [Nat.le_div_iff_mul_le hm']
        calc 2 ^ 52 * m' ≤ 2 ^ 52 * 2 ^ (m'.log2 + 1) :=
              Nat.mul_le_mul_left _ Nat.lt_log2_self.le
          _ = 2 ^ (m'.log2 + 1 + 52) := by rw [← Nat.pow_add, Nat.add_comm]
          _ ≤ 2 ^ (m.log2 + k) := Nat.pow_le_pow_right two_pos hplaces
          _ = 2 ^ m.log2 * 2 ^ k := Nat.pow_add _ _ _
          _ ≤ m * 2 ^ k := Nat.mul_le_mul_right _ (Nat.log2_self_le hm.ne')
      have hlog : 52 ≤ (m * 2 ^ k / m').log2 :=
        (Nat.le_log2 (Nat.lt_of_lt_of_le (Nat.two_pow_pos 52) hfull).ne').2 hfull
      unfold target
      omega

theorem div_eq (a b : Float) : a / b = ofParts (.div .binary64 (parts a) (parts b)) := rfl

theorem div_finite (s t : Sign) (hm : 0 < m) (hm' : 0 < m') :
    UnpackedFloat.div .binary64 (.finite s m e hm) (.finite t m' e' hm') =
      roundWithAccuracy .binary64 (s / t) (divCore .binary64 m e m' e').1
        (divCore .binary64 m e m' e').2.1 (divCore .binary64 m e m' e').2.2 := rfl

theorem apply_div (s t : Sign) : ((s / t).apply 1 : ℚ) = s.apply 1 / t.apply 1 := by
  cases s <;> cases t
  · change ((1 : ℤ) : ℚ) = ((-1 : ℤ) : ℚ) / ((-1 : ℤ) : ℚ)
    norm_num
  · change ((-1 : ℤ) : ℚ) = ((-1 : ℤ) : ℚ) / ((1 : ℤ) : ℚ)
    norm_num
  · change ((-1 : ℤ) : ℚ) = ((1 : ℤ) : ℚ) / ((-1 : ℤ) : ℚ)
    norm_num
  · change ((1 : ℤ) : ℚ) = ((1 : ℤ) : ℚ) / ((1 : ℤ) : ℚ)
    norm_num

/-- The value of a quotient, with the sign and the places apart. -/
theorem quotient_value (s t : Sign) (hm' : 0 < m') (k : ℕ) :
    (s.apply m : ℚ) * 2 ^ e / (t.apply m' * 2 ^ e') =
      (s / t).apply 1 * ((m * 2 ^ k : ℕ) / m') * 2 ^ (e - e' - k) := by
  have hpos : (m' : ℚ) ≠ 0 := by exact_mod_cast hm'.ne'
  have htwo : (2 : ℚ) ^ e' ≠ 0 := (two_pow_pos e').ne'
  have hunit : (t.apply 1 : ℚ) ≠ 0 := by cases t <;> norm_num [Sign.apply]
  rw [apply_eq_mul s, apply_eq_mul t, apply_div, zpow_sub₀ (by norm_num), zpow_sub₀ (by norm_num),
    zpow_natCast]
  push_cast
  field_simp

/-- **A quotient is rounded once.** -/
theorem rounds_div (ha : Represents a q) (hb : Represents b r) (hr : r ≠ 0) :
    Rounds (parts (a / b)) (q / r) := by
  rw [div_eq]
  rcases represents_iff.1 hb with ⟨t, -, rfl⟩ | ⟨t, m', e', hm', hy, -, -, rfl⟩
  · exact absurd rfl hr
  rcases represents_iff.1 ha with ⟨s, hx, rfl⟩ | ⟨s, m, e, hm, hx, -, -, rfl⟩
  · rw [hx, hy, zero_div]
    exact rounds_zero (s / t)
  · obtain ⟨k, hcore, hle⟩ := exists_divCore_eq hm hm' e e'
    have hpos : (0 : ℚ) < (m * 2 ^ k : ℕ) / m' := by positivity
    rw [hx, hy, div_finite, hcore, quotient_value s t hm' k]
    exact rounds_roundWithAccuracy (s / t) (approximates_div _ hm') hpos hle

/-! ### Halves -/

theorem represents_two : Represents (1 + 1) 2 := by
  have hparts : parts (1 + 1) = .finite .positive (2 ^ 52) (-51) (by decide) := rfl
  unfold Represents
  rw [hparts]
  change (2 : ℚ) = ((2 ^ 52 : ℕ) : ℤ) * 2 ^ (-51 : ℤ)
  norm_num

/-- One half is rounded once. -/
theorem rounds_half (h : Represents a q) : Rounds (parts (half a)) (q / 2) :=
  rounds_div h represents_two two_ne_zero

theorem parts_half_infinity {s : Sign} (h : parts a = .infinity s) :
    parts (half a) = .infinity s := by
  change parts (a / (1 + 1)) = _
  rw [div_eq, h]
  cases s <;> rfl

theorem parts_half_notANumber (h : parts a = .notANumber) : parts (half a) = .notANumber := by
  change parts (a / (1 + 1)) = _
  rw [div_eq, h]
  rfl

theorem abs_apply_mul (s : Sign) (m : ℕ) (e : ℤ) : |(s.apply m : ℚ) * 2 ^ e| = m * 2 ^ e := by
  have hnonneg : (0 : ℚ) ≤ m * 2 ^ e := mul_nonneg (Nat.cast_nonneg m) (two_pow_pos e).le
  cases s with
  | positive => exact abs_of_nonneg hnonneg
  | negative =>
    change |((-(m : ℤ) : ℤ) : ℚ) * 2 ^ e| = _
    rw [Int.cast_neg, neg_mul, abs_neg]
    exact abs_of_nonneg hnonneg

/-- A double has room for one half of a number unless that is among the smallest ones. -/
theorem Representable.half (h : Representable q) (hq : q = 0 ∨ 2 ^ (-1021 : ℤ) ≤ |q|) :
    Representable (q / 2) := by
  obtain ⟨s, m, e, hm, he, he', rfl⟩ := h
  rcases he.lt_or_eq with hlt | rfl
  · refine ⟨s, m, e - 1, hm, by omega, by omega, ?_⟩
    rw [zpow_sub_one₀ (by norm_num)]
    ring
  · rcases hq with hzero | hlarge
    · rw [hzero, zero_div]
      exact ⟨.positive, 0, 0, by decide, by decide, by decide, by simp [Sign.apply]⟩
    · -- the mantissa has no room for such a magnitude at the least exponent
      have hlt : (m : ℚ) < 2 ^ 53 := by exact_mod_cast hm
      have hsplit : (2 : ℚ) ^ (-1021 : ℤ) = 2 ^ 53 * 2 ^ (-1074 : ℤ) := by
        rw [show (-1021 : ℤ) = 53 + -1074 by norm_num, zpow_add₀ (by norm_num)]
        norm_num
      rw [abs_apply_mul, hsplit] at hlarge
      exact absurd (le_of_mul_le_mul_right hlarge (two_pow_pos _)) (not_le.2 hlt)

/-- **One half of a double is exact** unless the double is among the smallest ones. -/
theorem represents_half (h : Represents a q) (hq : q = 0 ∨ 2 ^ (-1021 : ℤ) ≤ |q|) :
    Represents (half a) (q / 2) :=
  (rounds_half h).denotes (h.representable.half hq)

end Binary64

end Mosaic
