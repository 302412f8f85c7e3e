import Mosaic.Proofs.Comparisons

/-!
# The total order of doubles

Sorting goes by the representation of a double, its sign and the bits below it, and knows nothing of
the number that the double stands for.  Finite doubles come in the order of their numbers all the
same: the bits of a magnitude list the exponent before the mantissa, and a mantissa fills its bits
unless the exponent is the least one.  Only the two zeros, which stand for one number, are told
apart.

* `place m e`: the bits of a canonical magnitude, as a number.
* `exists_magnitude_eq`: the representation of a finite double.
* `le_of_precedes`, `precedes_iff`: the total order agrees with that of the numbers.
-/

namespace Mosaic

open Coordinate Float.Model Float.Model.UnpackedFloat

namespace Binary64

variable {a b : Float} {q r : ℚ} {m m' : ℕ} {e e' : ℤ}

/-! ### The bits of a magnitude -/

/-- The bits below the sign: the exponent, counted from the least one, and then the mantissa. -/
def place (m : ℕ) (e : ℤ) : ℤ :=
  (e + 1074) * fractions + m

/-- Canonical magnitudes are in the order of their bits. -/
theorem magnitude_le_of_place_le (h : Canonical m e) (h' : Canonical m' e')
    (hle : place m e ≤ place m' e') : (m : ℚ) * 2 ^ e ≤ m' * 2 ^ e' := by
  unfold place fractions at hle
  rcases lt_trichotomy e e' with hlt | rfl | hlt
  · exact (magnitude_lt h h' hlt).le
  · have hm : m ≤ m' := by omega
    exact mul_le_mul_of_nonneg_right (by exact_mod_cast hm) (two_pow_pos e).le
  · -- the mantissa with the larger exponent is full, which the other one cannot make up for
    have hfull := h.full.resolve_right (by have := h'.le; omega)
    have := h'.lt
    omega

theorem toNat_packComponents (s : Sign) (e : BitVec 11) (m : BitVec 52) :
    (packComponents .binary64 s e m).toNat =
      s.toBitVec.toNat * signBit + (e.toNat * fractions + m.toNat) := by
  have happend : ∀ {v w : ℕ} (x : BitVec v) (y : BitVec w),
      (x ++ y).toNat = x.toNat * 2 ^ w + y.toNat := fun x y => by
    rw [BitVec.toNat_append, ← Nat.shiftLeft_add_eq_or_of_lt y.isLt, Nat.shiftLeft_eq]
  unfold packComponents signBit fractions
  rw [happend, happend]
  omega

/-- The bits of a double are a sign, an exponent and a mantissa. -/
theorem exists_toBits_eq (a : Float) : ∃ s e m,
    a.toBits.toNat = s.toBitVec.toNat * signBit + (e.toNat * fractions + m.toNat) ∧
      parts a = UnpackedFloat.unpack .binary64 (packComponents .binary64 s e m) := by
  have hcomponents := @packComponents_unpackSign_unpackExponent_unpackMantissa .binary64
    a.toModel.toBits.toBitVec
  refine ⟨_, _, _, ?_, congrArg (UnpackedFloat.unpack .binary64) hcomponents.symm⟩
  rw [← toNat_packComponents, hcomponents]
  rfl

section Components

variable {s : Sign} {b : BitVec 11} {c : BitVec 52}

theorem bits_lt_signBit (b : BitVec 11) (c : BitVec 52) :
    b.toNat * fractions + c.toNat < signBit := by
  have hb : b.toNat < 2048 := b.isLt
  have hc : c.toNat < fractions := c.isLt
  unfold signBit fractions at *
  omega

variable (h : a.toBits.toNat = s.toBitVec.toNat * signBit + (b.toNat * fractions + c.toNat))
include h

theorem isNegative_iff_of_toBits_eq : isNegative a ↔ s = .negative := by
  have hlt := bits_lt_signBit b c
  unfold isNegative
  rw [h, decide_eq_true_iff]
  cases s with
  | negative => exact iff_of_true (by change _ ≤ 1 * _ + _; omega) rfl
  | positive => exact iff_of_false (by change ¬ _ ≤ 0 * _ + _; omega) nofun

theorem magnitude_of_toBits_eq : magnitude a = b.toNat * fractions + c.toNat := by
  unfold magnitude
  rw [h, Nat.add_comm, Nat.add_mul_mod_self_right, Nat.mod_eq_of_lt (bits_lt_signBit b c)]

end Components

/-- The sign of a finite double and the place of its magnitude. -/
theorem exists_magnitude_eq (h : Represents a q) : ∃ (s : Sign) (m : ℕ) (e : ℤ),
    Canonical m e ∧ q = s.apply m * 2 ^ e ∧
      (isNegative a ↔ s = .negative) ∧ magnitude a = place m e := by
  obtain ⟨s, b, c, hbits, hparts⟩ := exists_toBits_eq a
  have hsign := isNegative_iff_of_toBits_eq hbits
  have hmagnitude := magnitude_of_toBits_eq hbits
  unfold Represents at h
  rw [hparts] at h
  by_cases hinf : b = -1#11
  · subst hinf
    by_cases hzero : c = 0#52 <;> simp [UnpackedFloat.unpack, hzero, Denotes] at h
  by_cases hmin : b = 0#11
  · subst hmin
    by_cases hzero : c = 0#52
    · subst hzero
      have hq : q = 0 := by simpa [UnpackedFloat.unpack, Denotes] using h
      refine ⟨s, 0, -1074, ⟨by decide, le_rfl, Or.inr rfl⟩, ?_, hsign, ?_⟩
      · rw [hq]
        cases s <;> simp [Sign.apply]
      · rw [hmagnitude]
        rfl
    · obtain ⟨_, heq⟩ := unpack_subnormal s hzero
      have hcanonical := (canonical_of_parts_eq (hparts.trans heq)).1
      rw [heq] at h
      refine ⟨s, c.toNat, -1074, hcanonical, h, hsign, ?_⟩
      rw [hmagnitude]
      unfold place
      simp
  · obtain ⟨_, heq⟩ := unpack_normal s c hinf hmin
    have hcanonical := (canonical_of_parts_eq (hparts.trans heq)).1
    rw [heq] at h
    refine ⟨s, (1#1 ++ c).toNat, b.toNat - 1075, hcanonical, h, hsign, ?_⟩
    rw [hmagnitude, toNat_leading_append]
    unfold place fractions
    push_cast
    ring

/-! ### The order -/

/-- **The total order agrees with that of the numbers.** -/
theorem le_of_precedes (ha : Represents a q) (hb : Represents b r)
    (h : Coordinate.precedes a b = true) : q ≤ r := by
  have hrank : doubleRank a ≤ doubleRank b := of_decide_eq_true h
  unfold doubleRank at hrank
  obtain ⟨s, m, e, hm, rfl, hs, hplace⟩ := exists_magnitude_eq ha
  obtain ⟨t, m', e', hm', rfl, ht, hplace'⟩ := exists_magnitude_eq hb
  cases s with
  | negative =>
    cases t with
    | negative =>
      rw [if_pos (hs.2 rfl), if_pos (ht.2 rfl), hplace, hplace'] at hrank
      rw [negative_value, negative_value]
      exact neg_le_neg (magnitude_le_of_place_le hm' hm (by omega))
    | positive =>
      exact (negative_nonpos m e).trans (mul_nonneg (Nat.cast_nonneg m') (two_pow_pos e').le)
  | positive =>
    have hnot : ¬ isNegative a := fun h => Sign.noConfusion (hs.1 h)
    rw [if_neg hnot] at hrank
    cases t with
    | negative =>
      rw [if_pos (ht.2 rfl)] at hrank
      omega
    | positive =>
      have hnot' : ¬ isNegative b := fun h => Sign.noConfusion (ht.1 h)
      rw [if_neg hnot', hplace, hplace'] at hrank
      exact magnitude_le_of_place_le hm hm' hrank

/-- Of doubles that stand for different numbers, the smaller one comes first. -/
theorem precedes_iff (ha : Represents a q) (hb : Represents b r) (hne : q ≠ r) :
    Coordinate.precedes a b = true ↔ q ≤ r := by
  refine ⟨le_of_precedes ha hb, fun hle => ?_⟩
  rcases le_total (doubleRank a) (doubleRank b) with h | h
  · exact decide_eq_true h
  · exact absurd (hle.antisymm (le_of_precedes hb ha (decide_eq_true h))) hne

end Binary64

end Mosaic
