import Mathlib.Data.Rat.Floor
import Mathlib.Tactic.NormNum
import Mathlib.Tactic.Positivity
import Mathlib.Tactic.Ring
import Mosaic.Coordinate.Float

/-!
# Rounding a magnitude

The operations on doubles compute a mantissa and an exponent, note whether that is exact, and round
the result once, to a mantissa of at most 53 bits.  The rounded mantissa is one of the two whole
numbers next to a quotient, which is all that is needed of the rule for ties: a rounded magnitude
stays on the same side of every magnitude that has a short mantissa itself.

* `Approximates m acc x`: the mantissa is what is left of the number `x` without its fraction.
* `quotient m acc k`: the mantissa `m` without its last `k` bits, rounded.
* `exists_roundWithAccuracy_eq`: what rounding does to a magnitude.
* `le_rounded`, `rounded_le`: no short magnitude is crossed.
-/

namespace Mosaic

open Float.Model Float.Model.UnpackedFloat

namespace Binary64

/-! ### Magnitudes -/

/-- The mantissa fits its bits, and it fills them unless the exponent is the least one. -/
structure Canonical (m : ℕ) (e : ℤ) : Prop where
  lt : m < 2 ^ 53
  le : -1074 ≤ e
  full : 2 ^ 52 ≤ m ∨ e = -1074

/-- The exponent to which a magnitude is rounded. -/
def target (m : ℕ) (e : ℤ) : ℤ :=
  max (m.log2 + e - 52) (-1074)

theorem targetExponent_eq (m : ℕ) (e : ℤ) :
    Format.binary64.targetExponent (totalExponent m e) = target m e := by
  change max ((m.log2 : ℤ) + 1 + e - 53) (-1074) = max (m.log2 + e - 52) (-1074)
  congr 1
  omega

theorem mantissa_shiftRight (em : ExtendedMantissa) (k : ℕ) :
    (em >>> k).mantissa = em.mantissa / 2 ^ k := by
  induction k with
  | zero => simp [HShiftRight.hShiftRight, Nat.repeat]
  | succ k ih =>
    change (em >>> k).mantissa / 2 = _
    rw [ih, Nat.div_div_eq_div_mul, Nat.pow_succ]

/-- A mantissa that ends in enough zeros is shifted without loss. -/
theorem shiftRight_mul_two_pow (m k : ℕ) :
    (⟨m * 2 ^ k, false, false⟩ : ExtendedMantissa) >>> k = ⟨m, false, false⟩ := by
  induction k generalizing m with
  | zero => simp [HShiftRight.hShiftRight, Nat.repeat]
  | succ k ih =>
    change ((⟨m * 2 ^ (k + 1), false, false⟩ : ExtendedMantissa) >>> k).shiftRightOne = _
    rw [Nat.pow_succ, ← Nat.mul_assoc, Nat.mul_right_comm, ih]
    simp [ExtendedMantissa.shiftRightOne]

/-- The mantissa is the whole part of the number, and it is called exact if it is the number. -/
structure Approximates (m : ℕ) (acc : Accuracy) (x : ℚ) : Prop where
  le : m ≤ x
  lt : x < m + 1
  exact : x = m → acc = .exact

theorem Approximates.natCast (m : ℕ) : Approximates m .exact m :=
  ⟨le_rfl, lt_add_one _, fun _ => rfl⟩

/-- The rounded quotient of a mantissa by a power of two. -/
def quotient (m : ℕ) (acc : Accuracy) (k : ℕ) : ℕ :=
  (ExtendedMantissa.ofMantissaAndAccuracy m acc >>> k).roundedMantissa

@[simp] theorem mantissa_ofMantissaAndAccuracy (m : ℕ) (acc : Accuracy) :
    (ExtendedMantissa.ofMantissaAndAccuracy m acc).mantissa = m := by
  rcases acc with _ | (_ | _ | _) <;> rfl

theorem le_roundedMantissa (em : ExtendedMantissa) :
    em.mantissa ≤ em.roundedMantissa ∧ em.roundedMantissa ≤ em.mantissa + 1 := by
  rcases em with ⟨m, round, sticky⟩
  cases round <;> cases sticky <;>
    simp only [ExtendedMantissa.roundedMantissa, ExtendedMantissa.accuracy,
      Accuracy.roundToNearestEven] <;> omega

theorem quotient_mul_two_pow (m k : ℕ) : quotient (m * 2 ^ k) .exact k = m := by
  change ((⟨m * 2 ^ k, false, false⟩ : ExtendedMantissa) >>> k).roundedMantissa = m
  rw [shiftRight_mul_two_pow]
  rfl

section Quotient

variable {m : ℕ} {acc : Accuracy} {k d : ℕ} {x : ℚ}

theorem div_le_quotient (m : ℕ) (acc : Accuracy) (k : ℕ) : m / 2 ^ k ≤ quotient m acc k := by
  have h := (le_roundedMantissa (ExtendedMantissa.ofMantissaAndAccuracy m acc >>> k)).1
  rwa [mantissa_shiftRight, mantissa_ofMantissaAndAccuracy] at h

theorem quotient_le_div_add_one (m : ℕ) (acc : Accuracy) (k : ℕ) :
    quotient m acc k ≤ m / 2 ^ k + 1 := by
  have h := (le_roundedMantissa (ExtendedMantissa.ofMantissaAndAccuracy m acc >>> k)).2
  rwa [mantissa_shiftRight, mantissa_ofMantissaAndAccuracy] at h

/-- Rounding a quotient never crosses a whole number from above ... -/
theorem le_quotient (h : Approximates m acc x) (hd : (d : ℚ) * 2 ^ k ≤ x) :
    d ≤ quotient m acc k := by
  have hlt : (d : ℚ) * 2 ^ k < m + 1 := hd.trans_lt h.lt
  have hle : d * 2 ^ k ≤ m := Nat.lt_succ_iff.1 (by exact_mod_cast hlt)
  exact ((Nat.le_div_iff_mul_le (Nat.two_pow_pos k)).2 hle).trans (div_le_quotient m acc k)

/-- ... nor from below. -/
theorem quotient_le (h : Approximates m acc x) (hd : x ≤ d * 2 ^ k) : quotient m acc k ≤ d := by
  by_cases hlt : m / 2 ^ k < d
  · exact (quotient_le_div_add_one m acc k).trans hlt
  · -- the mantissa cannot exceed the whole number, so it is exact and a multiple
    have hle : d * 2 ^ k ≤ m := (Nat.le_div_iff_mul_le (Nat.two_pow_pos k)).1 (not_lt.1 hlt)
    have hcast : (d : ℚ) * 2 ^ k ≤ m := by exact_mod_cast hle
    have hx : x = m := (hd.trans hcast).antisymm h.le
    have hm : m = d * 2 ^ k := by
      rw [hx] at hd
      exact_mod_cast hd.antisymm hcast
    rw [h.exact hx, hm, quotient_mul_two_pow]

end Quotient

/-- The parts with the given magnitude. -/
def ofMagnitude (s : Sign) (m : ℕ) (e : ℤ) : UnpackedFloat :=
  if h : m = 0 then .zero s else .finite s m e (Nat.pos_of_ne_zero h)

theorem shiftToTargetExponent_eq {m : ℕ} {e : ℤ} {k : ℕ} (acc : Accuracy)
    (hk : (target m e - e).toNat = k) : shiftToTargetExponent .binary64 m e acc =
      (ExtendedMantissa.ofMantissaAndAccuracy m acc >>> k, e + k) := by
  unfold shiftToTargetExponent shiftToExponent
  dsimp only
  rw [targetExponent_eq, hk]

theorem target_le {m : ℕ} {e : ℤ} (hm : m < 2 ^ 53) (he : -1074 ≤ e) : target m e ≤ e := by
  have hlog : m.log2 ≤ 52 := by
    rcases Nat.eq_zero_or_pos m with rfl | hpos
    · decide
    · exact Nat.lt_succ_iff.1 ((Nat.log2_lt hpos.ne').2 hm)
  unfold target
  omega

theorem shiftToTargetExponent_of_lt {m : ℕ} {e : ℤ} (hm : m < 2 ^ 53) (he : -1074 ≤ e) :
    shiftToTargetExponent .binary64 m e .exact = (⟨m, false, false⟩, e) := by
  have htarget := target_le hm he
  rw [shiftToTargetExponent_eq (k := 0) _ (by omega), Nat.cast_zero, add_zero]
  rfl

theorem shiftToTargetExponent_two_pow {e : ℤ} (he : -1074 ≤ e) :
    shiftToTargetExponent .binary64 (2 ^ 53) e .exact = (⟨2 ^ 52, false, false⟩, e + 1) := by
  have htarget : target (2 ^ 53) e = e + 1 := by
    unfold target
    rw [Nat.log2_two_pow]
    push_cast
    omega
  rw [shiftToTargetExponent_eq (k := 1) _ (by omega)]
  rfl

section Rounded

variable {m : ℕ} {e : ℤ} {acc : Accuracy} {x : ℚ} {k c : ℕ} {f : ℤ}

theorem log2_eq_of_target (hk : target m e = e + k) (hmin : e + k ≠ -1074) : m.log2 = 52 + k := by
  unfold target at hk
  omega

theorem le_of_log2_eq (h : m.log2 = 52 + k) : 2 ^ 52 * 2 ^ k ≤ m := by
  have hm : m ≠ 0 := by
    rintro rfl
    rw [Nat.log2_zero] at h
    omega
  rw [← Nat.pow_add, ← h]
  exact Nat.log2_self_le hm

/-- Rounding a magnitude divides its mantissa by a power of two. -/
theorem exists_roundWithAccuracy_eq (s : Sign) (acc : Accuracy) (hk : target m e = e + k) :
    ∃ m' e', Canonical m' e' ∧ (m' : ℚ) * 2 ^ e' = quotient m acc k * 2 ^ (e + k) ∧
      roundWithAccuracy .binary64 s m e acc = ofMagnitude s m' e' := by
  have hle : -1074 ≤ e + k := by
    rw [← hk]
    exact le_max_right _ _
  have hlog : (m.log2 : ℤ) ≤ 52 + k := by
    have h := le_max_left ((m.log2 : ℤ) + e - 52) (-1074)
    change _ ≤ target m e at h
    omega
  have hfull : 2 ^ 52 ≤ quotient m acc k ∨ e + k = -1074 := by
    by_cases hmin : e + k = -1074
    · exact Or.inr hmin
    · have hm := le_of_log2_eq (log2_eq_of_target hk hmin)
      exact Or.inl (((Nat.le_div_iff_mul_le (Nat.two_pow_pos k)).2 hm).trans
        (div_le_quotient m acc k))
  have hquotient : quotient m acc k ≤ 2 ^ 53 := by
    refine (quotient_le_div_add_one m acc k).trans ?_
    refine (Nat.div_lt_iff_lt_mul (Nat.two_pow_pos k)).2 ?_
    rw [← Nat.pow_add]
    exact Nat.lt_log2_self.trans_le (Nat.pow_le_pow_right (by decide) (by omega))
  have hround : roundWithAccuracy .binary64 s m e acc =
      ofMagnitude s (shiftToTargetExponent .binary64 (quotient m acc k) (e + k) .exact).1.mantissa
        (shiftToTargetExponent .binary64 (quotient m acc k) (e + k) .exact).2 := by
    unfold roundWithAccuracy
    rw [shiftToTargetExponent_eq (k := k) acc (by omega)]
    rfl
  rcases hquotient.lt_or_eq with hlt | heq
  · refine ⟨quotient m acc k, e + k, ⟨hlt, hle, hfull⟩, rfl, ?_⟩
    rw [hround, shiftToTargetExponent_of_lt hlt hle]
  · -- the mantissa has become one bit longer
    refine ⟨2 ^ 52, e + k + 1, ⟨by decide, by omega, Or.inl le_rfl⟩, ?_, ?_⟩
    · rw [heq, zpow_add_one₀ (by norm_num)]
      push_cast
      ring
    · rw [hround, heq, shiftToTargetExponent_two_pow hle]

/-- A magnitude with a short mantissa is a multiple of the last place that is rounded to, or it is
smaller than all magnitudes with as many digits as that place leaves. -/
theorem short_magnitude (h : Approximates m acc x) (hk : target m e = e + k) (hc : c < 2 ^ 53)
    (hf : -1074 ≤ f) :
    (∃ d : ℕ, (c : ℚ) * 2 ^ f = d * 2 ^ (e + k)) ∨
      2 ^ 52 * 2 ^ k ≤ x ∧ (c : ℚ) * 2 ^ f < 2 ^ 52 * 2 ^ (e + k) := by
  by_cases hle : e + k ≤ f
  · refine Or.inl ⟨c * 2 ^ (f - (e + k)).toNat, ?_⟩
    have hsplit : f = (f - (e + k)).toNat + (e + k) := by omega
    push_cast
    rw [mul_assoc, ← zpow_natCast, ← zpow_add₀ (by norm_num), ← hsplit]
  · have hm := le_of_log2_eq (log2_eq_of_target hk (by omega))
    refine Or.inr ⟨le_trans (by exact_mod_cast hm) h.le, ?_⟩
    calc (c : ℚ) * 2 ^ f ≤ c * 2 ^ (e + k - 1) := by
          refine mul_le_mul_of_nonneg_left ?_ (Nat.cast_nonneg c)
          exact zpow_le_zpow_right₀ (by norm_num) (by omega)
      _ < 2 ^ 53 * 2 ^ (e + k - 1) := by
          refine mul_lt_mul_of_pos_right ?_ (zpow_pos (by norm_num) _)
          exact_mod_cast hc
      _ = 2 ^ 52 * 2 ^ (e + k) := by
          rw [zpow_sub_one₀ (by norm_num)]
          ring

theorem magnitude_eq (x : ℚ) (e : ℤ) (k : ℕ) : x * 2 ^ e = x / 2 ^ k * 2 ^ (e + k) := by
  rw [zpow_add₀ (by norm_num), zpow_natCast]
  field_simp

/-- A rounded magnitude is at least as large as all short ones below the exact one ... -/
theorem le_rounded (h : Approximates m acc x) (hk : target m e = e + k) (hc : c < 2 ^ 53)
    (hf : -1074 ≤ f) (hle : (c : ℚ) * 2 ^ f ≤ x * 2 ^ e) :
    (c : ℚ) * 2 ^ f ≤ quotient m acc k * 2 ^ (e + k) := by
  have hpos : (0 : ℚ) < 2 ^ (e + k) := zpow_pos (by norm_num) _
  rcases short_magnitude h hk hc hf with ⟨d, hd⟩ | ⟨hfull, hlt⟩
  · rw [hd, magnitude_eq x e k, mul_le_mul_iff_left₀ hpos, le_div_iff₀ (by positivity)] at hle
    rw [hd, mul_le_mul_iff_left₀ hpos]
    exact_mod_cast le_quotient h hle
  · refine hlt.le.trans ((mul_le_mul_iff_left₀ hpos).2 ?_)
    exact_mod_cast le_quotient (d := 2 ^ 52) h (by exact_mod_cast hfull)

/-- ... and at most as large as all short ones above it. -/
theorem rounded_le (h : Approximates m acc x) (hk : target m e = e + k) (hc : c < 2 ^ 53)
    (hf : -1074 ≤ f) (hle : x * 2 ^ e ≤ c * 2 ^ f) :
    (quotient m acc k : ℚ) * 2 ^ (e + k) ≤ c * 2 ^ f := by
  have hpos : (0 : ℚ) < 2 ^ (e + k) := zpow_pos (by norm_num) _
  rcases short_magnitude h hk hc hf with ⟨d, hd⟩ | ⟨hfull, hlt⟩
  · rw [hd, magnitude_eq x e k, mul_le_mul_iff_left₀ hpos, div_le_iff₀ (by positivity)] at hle
    rw [hd, mul_le_mul_iff_left₀ hpos]
    exact_mod_cast quotient_le h hle
  · -- the exact magnitude would have fewer digits than its place leaves
    have hge : (2 : ℚ) ^ 52 * 2 ^ (e + k) ≤ x * 2 ^ e := by
      rw [magnitude_eq x e k, mul_le_mul_iff_left₀ hpos, le_div_iff₀ (by positivity)]
      exact hfull
    exact absurd (hge.trans hle) (not_le.2 hlt)

end Rounded

end Binary64

end Mosaic
