import Mosaic.Proofs.Doubles
import Mosaic.Proofs.Magnitudes

/-!
# Rounding to doubles

The numbers that doubles stand for, as rational numbers.  A sum, a difference or a product of finite
doubles is the exact result, rounded once; it may be infinite, and it has crossed no number that a
double has room for.  So results that a double has room for are exact.

* `Represents a q`: the double is finite and stands for the number.
* `Rounds x q`: the parts of a double are those of the number, rounded.
* `rounds_add`, `rounds_sub`, `rounds_mul`: the operations round once.
* `Rounds.denotes`: representable results are exact.
-/

namespace Mosaic

open Coordinate Float.Model Float.Model.UnpackedFloat

namespace Binary64

variable {m : ℕ} {e : ℤ} {k c : ℕ} {f : ℤ}

/-! ### Packing -/

theorem finite_congr {s : Sign} {m m' : ℕ} {e e' : ℤ} {h : 0 < m} {h' : 0 < m'} (hm : m = m')
    (he : e = e') : UnpackedFloat.finite s m e h = .finite s m' e' h' := by
  subst hm
  subst he
  rfl

/-- The parts of a double have a canonical magnitude. -/
theorem canonical_of_parts_eq {a : Float} {s : Sign} {hm : 0 < m}
    (h : parts a = .finite s m e hm) : Canonical m e ∧ e ≤ 971 := by
  obtain ⟨t, b, c, hparts⟩ := exists_parts_eq a
  rw [h] at hparts
  have hc : c.toNat < 2 ^ 52 := c.isLt
  have hb : b.toNat < 2 ^ 11 := b.isLt
  by_cases hinf : b = -1#11
  · subst hinf
    by_cases hc : c = 0#52 <;> simp [UnpackedFloat.unpack, hc] at hparts
  · by_cases hmin : b = 0#11
    · subst hmin
      by_cases hc : c = 0#52
      · simp [UnpackedFloat.unpack, hc] at hparts
      · obtain ⟨_, heq⟩ := unpack_subnormal t hc
        obtain ⟨-, rfl, rfl⟩ := UnpackedFloat.finite.inj (hparts.trans heq)
        exact ⟨⟨by omega, le_rfl, Or.inr rfl⟩, by decide⟩
    · obtain ⟨_, heq⟩ := unpack_normal t c hinf hmin
      obtain ⟨-, rfl, rfl⟩ := UnpackedFloat.finite.inj (hparts.trans heq)
      have hpos : b.toNat ≠ 0 := fun hzero => hmin (BitVec.eq_of_toNat_eq hzero)
      have hlt : b.toNat ≠ 2047 := fun heq => hinf (BitVec.eq_of_toNat_eq heq)
      rw [toNat_leading_append]
      exact ⟨⟨by omega, by omega, Or.inl (by omega)⟩, by omega⟩

/-- Packing keeps a canonical magnitude unless the exponent is too large. -/
theorem parts_ofParts_of_canonical (s : Sign) (hm : 0 < m) (h : Canonical m e) (he : e ≤ 971) :
    parts (ofParts (.finite s m e hm)) = .finite s m e hm := by
  have hpacked : ∃ b c, UnpackedFloat.finite s m e hm =
      UnpackedFloat.unpack .binary64 (packComponents .binary64 s b c) := by
    have hlt := h.lt
    have hle := h.le
    by_cases hfull : 2 ^ 52 ≤ m
    · have hb : (BitVec.ofNat 11 (e + 1075).toNat).toNat = (e + 1075).toNat := by
        rw [BitVec.toNat_ofNat]
        omega
      have hc : (BitVec.ofNat 52 (m - 2 ^ 52)).toNat = m - 2 ^ 52 := by
        rw [BitVec.toNat_ofNat]
        omega
      have hinf : BitVec.ofNat 11 (e + 1075).toNat ≠ -1#11 := fun heq => by
        have h := hb.symm.trans (congrArg BitVec.toNat heq)
        change (e + 1075).toNat = 2047 at h
        omega
      have hmin : BitVec.ofNat 11 (e + 1075).toNat ≠ 0#11 := fun heq => by
        have h := hb.symm.trans (congrArg BitVec.toNat heq)
        change (e + 1075).toNat = 0 at h
        omega
      obtain ⟨_, heq⟩ := unpack_normal s (BitVec.ofNat 52 (m - 2 ^ 52)) hinf hmin
      refine ⟨_, _, Eq.trans (finite_congr ?_ ?_) heq.symm⟩
      · rw [toNat_leading_append, hc]
        omega
      · rw [hb]
        omega
    · have hc : (BitVec.ofNat 52 m).toNat = m := by
        rw [BitVec.toNat_ofNat]
        omega
      have hne : BitVec.ofNat 52 m ≠ 0#52 := fun heq => by
        have h := hc.symm.trans (congrArg BitVec.toNat heq)
        change m = 0 at h
        omega
      obtain ⟨_, heq⟩ := unpack_subnormal s hne
      refine ⟨_, _, Eq.trans (finite_congr hc.symm ?_) heq.symm⟩
      exact h.full.resolve_left hfull
  obtain ⟨b, c, heq⟩ := hpacked
  rw [heq]
  exact unpack_pack_unpack _

theorem parts_ofParts_of_overflow (s : Sign) (hm : 0 < m) (he : 971 < e) :
    parts (ofParts (.finite s m e hm)) = .infinity s := by
  have hpack : UnpackedFloat.pack .binary64 (.finite s m e hm) = packedInfinity .binary64 s := by
    unfold UnpackedFloat.pack
    dsimp only
    rw [if_pos]
    change 2048 ≤ (e + (1023 : ℕ) + (52 : ℕ)).toNat + 1
    omega
  change UnpackedFloat.unpack .binary64 (UnpackedFloat.pack .binary64 _) = _
  rw [hpack]
  cases s <;> cbv

/-! ### Values -/

/-- The parts of a finite double stand for this number. -/
def Denotes : UnpackedFloat → ℚ → Prop
  | .zero _, q => q = 0
  | .finite s m e _, q => q = s.apply m * 2 ^ e
  | .infinity _, _ => False
  | .notANumber, _ => False

instance : ∀ x q, Decidable (Denotes x q)
  | .zero _, q => inferInstanceAs (Decidable (q = 0))
  | .finite s m e _, q => inferInstanceAs (Decidable (q = s.apply m * 2 ^ e))
  | .infinity _, _ => inferInstanceAs (Decidable False)
  | .notANumber, _ => inferInstanceAs (Decidable False)

/-- The parts stand for infinity, or for a number that is at least as large. -/
def NotBelow (x : UnpackedFloat) (q : ℚ) : Prop :=
  x = .infinity .positive ∨ ∃ r, Denotes x r ∧ q ≤ r

/-- The parts stand for minus infinity, or for a number that is at most as large. -/
def NotAbove (x : UnpackedFloat) (q : ℚ) : Prop :=
  x = .infinity .negative ∨ ∃ r, Denotes x r ∧ r ≤ q

/-- The mantissa and the exponent of a double have room for the number. -/
def Representable (q : ℚ) : Prop :=
  ∃ (s : Sign) (c : ℕ) (f : ℤ), c < 2 ^ 53 ∧ -1074 ≤ f ∧ f ≤ 971 ∧ q = s.apply c * 2 ^ f

/-- The parts stand for a number without having crossed a representable number on the way. -/
def Rounds (x : UnpackedFloat) (q : ℚ) : Prop :=
  ∀ r, Representable r → (r ≤ q → NotBelow x r) ∧ (q ≤ r → NotAbove x r)

variable {x y : UnpackedFloat} {q r : ℚ}

theorem Denotes.unique (h : Denotes x q) (h' : Denotes x r) : q = r := by
  cases x with
  | notANumber => exact h.elim
  | infinity s => exact h.elim
  | zero s => exact Eq.trans h (Eq.symm h')
  | finite s m e hm => exact Eq.trans h (Eq.symm h')

theorem cast_neg_apply (s : Sign) (n : ℤ) : ((-s).apply n : ℚ) = -(s.apply n : ℚ) := by
  cases s
  · change (n : ℚ) = -((-n : ℤ) : ℚ)
    rw [Int.cast_neg, neg_neg]
  · exact Int.cast_neg n

theorem apply_mul_congr (s : Sign) {m n : ℕ} {u v : ℚ} (h : (m : ℚ) * u = n * v) :
    (s.apply m : ℚ) * u = s.apply n * v := by
  cases s with
  | positive => exact h
  | negative =>
    change ((-(m : ℤ) : ℤ) : ℚ) * u = ((-(n : ℤ) : ℤ) : ℚ) * v
    rw [Int.cast_neg, Int.cast_neg, neg_mul, neg_mul]
    exact congrArg _ h

theorem Denotes.neg (h : Denotes x q) : Denotes x.neg (-q) := by
  cases x with
  | notANumber => exact h
  | infinity s => exact h
  | zero s => exact neg_eq_zero.2 h
  | finite s m e hm =>
    change q = _ at h
    change -q = _
    rw [h, cast_neg_apply, neg_mul]

theorem Representable.neg (h : Representable q) : Representable (-q) := by
  obtain ⟨s, c, f, hc, hf, hf', rfl⟩ := h
  exact ⟨-s, c, f, hc, hf, hf', by rw [cast_neg_apply, neg_mul]⟩

/-- A mantissa of at most 53 bits, with its sign, and an exponent in range. -/
theorem representable_mul_two_pow {k : ℤ} (hk : |k| < 2 ^ 53) (hf : -1074 ≤ f) (hf' : f ≤ 971) :
    Representable (k * 2 ^ f) := by
  rw [Int.abs_eq_natAbs] at hk
  have hmagnitude : Representable ((k.natAbs : ℚ) * 2 ^ f) :=
    ⟨.positive, k.natAbs, f, by omega, hf, hf', rfl⟩
  rcases k.natAbs_eq with heq | heq
  · rw [heq, Int.cast_natCast]
    exact hmagnitude
  · rw [heq, Int.cast_neg, Int.cast_natCast, neg_mul]
    exact hmagnitude.neg

theorem NotBelow.neg (h : NotBelow x q) : NotAbove x.neg (-q) := by
  rcases h with rfl | ⟨r, hr, hle⟩
  · exact Or.inl rfl
  · exact Or.inr ⟨-r, hr.neg, neg_le_neg hle⟩

theorem NotAbove.neg (h : NotAbove x q) : NotBelow x.neg (-q) := by
  rcases h with rfl | ⟨r, hr, hle⟩
  · exact Or.inl rfl
  · exact Or.inr ⟨-r, hr.neg, neg_le_neg hle⟩

theorem Rounds.neg (h : Rounds x q) : Rounds x.neg (-q) := by
  intro r hr
  have hneg := h (-r) hr.neg
  constructor
  · intro hle
    simpa using (hneg.2 (le_neg_of_le_neg hle)).neg
  · intro hle
    simpa using (hneg.1 (neg_le_of_neg_le hle)).neg

theorem Denotes.rounds (h : Denotes x q) : Rounds x q :=
  fun _ _ => ⟨fun hle => Or.inr ⟨q, h, hle⟩, fun hle => Or.inr ⟨q, h, hle⟩⟩

/-- Representable numbers are not rounded. -/
theorem Rounds.denotes (h : Rounds x q) (hq : Representable q) : Denotes x q := by
  rcases (h q hq).1 le_rfl with rfl | ⟨r, hr, hle⟩
  · rcases (h q hq).2 le_rfl with hinf | ⟨r, hr, -⟩
    · cases hinf
    · exact hr.elim
  · rcases (h q hq).2 le_rfl with rfl | ⟨r', hr', hle'⟩
    · exact hr.elim
    · obtain rfl := hr.unique hr'
      rwa [hle.antisymm hle']

/-! ### Operations round -/

theorem two_pow_pos (e : ℤ) : (0 : ℚ) < 2 ^ e :=
  zpow_pos (by norm_num) e

/-- A multiple of a power of two, of at most 53 bits. -/
theorem representable_of_abs_lt {k : ℤ} (hlt : |(k : ℚ) * 2 ^ f| < 2 ^ 53 * 2 ^ f)
    (hf : -1074 ≤ f) (hf' : f ≤ 971) : Representable (k * 2 ^ f) := by
  rw [abs_mul, abs_of_pos (two_pow_pos f), ← Int.cast_abs] at hlt
  have hk : |k| < 2 ^ 53 := by exact_mod_cast lt_of_mul_lt_mul_right hlt (two_pow_pos f).le
  exact representable_mul_two_pow hk hf hf'

theorem magnitude_pos {m : ℕ} {e : ℤ} (hm : 0 < m) : (0 : ℚ) < m * 2 ^ e :=
  mul_pos (by exact_mod_cast hm) (two_pow_pos e)

theorem negative_nonpos (c : ℕ) (f : ℤ) : ((Sign.negative.apply c : ℤ) : ℚ) * 2 ^ f ≤ 0 := by
  have h : ((-(c : ℤ) : ℤ) : ℚ) ≤ 0 := by simp
  exact mul_nonpos_of_nonpos_of_nonneg h (two_pow_pos f).le

/-- A magnitude with a larger exponent than a double has room for exceeds all representable
numbers. -/
theorem lt_of_overflow (hc : c < 2 ^ 53) (hf : f ≤ 971) (hm : 2 ^ 52 ≤ m) (he : 971 < e) :
    (c : ℚ) * 2 ^ f < m * 2 ^ e := by
  calc (c : ℚ) * 2 ^ f ≤ c * 2 ^ (971 : ℤ) := by
        refine mul_le_mul_of_nonneg_left ?_ (Nat.cast_nonneg c)
        exact zpow_le_zpow_right₀ (by norm_num) hf
    _ < 2 ^ 53 * 2 ^ (971 : ℤ) := by
        refine mul_lt_mul_of_pos_right ?_ (two_pow_pos _)
        exact_mod_cast hc
    _ = 2 ^ 52 * 2 ^ (972 : ℤ) := by
        rw [show (972 : ℤ) = 971 + 1 by norm_num, zpow_add_one₀ (by norm_num)]
        ring
    _ ≤ m * 2 ^ (972 : ℤ) := by
        refine mul_le_mul_of_nonneg_right ?_ (two_pow_pos _).le
        exact_mod_cast hm
    _ ≤ m * 2 ^ e := by
        refine mul_le_mul_of_nonneg_left ?_ (Nat.cast_nonneg m)
        exact zpow_le_zpow_right₀ (by norm_num) (by omega)

/-- Unless its exponent is too large, a magnitude is packed as it is. -/
theorem denotes_ofMagnitude {m' : ℕ} {e' : ℤ} (hcanonical : Canonical m' e') (he : e' ≤ 971) :
    Denotes (parts (ofParts (ofMagnitude .positive m' e'))) (m' * 2 ^ e') := by
  unfold ofMagnitude
  split
  next h0 =>
    change (m' : ℚ) * 2 ^ e' = 0
    rw [h0, Nat.cast_zero, zero_mul]
  next hne =>
    rw [parts_ofParts_of_canonical .positive _ hcanonical he]
    rfl

theorem parts_ofMagnitude_of_overflow {m' : ℕ} {e' : ℤ} (hfull : 2 ^ 52 ≤ m') (he : ¬ e' ≤ 971) :
    parts (ofParts (ofMagnitude .positive m' e')) = .infinity .positive := by
  unfold ofMagnitude
  rw [dif_neg (by omega)]
  exact parts_ofParts_of_overflow .positive _ (by omega)

theorem rounds_ofMagnitude {acc : Accuracy} {v : ℚ} (h : Approximates m acc v) (hv : 0 < v)
    (hk : target m e = e + k) {m' : ℕ} {e' : ℤ} (hcanonical : Canonical m' e')
    (heq : (m' : ℚ) * 2 ^ e' = quotient m acc k * 2 ^ (e + k)) :
    Rounds (parts (ofParts (ofMagnitude .positive m' e'))) (v * 2 ^ e) := by
  have hpos : (0 : ℚ) < v * 2 ^ e := mul_pos hv (two_pow_pos e)
  have hfull : ¬ e' ≤ 971 → 2 ^ 52 ≤ m' :=
    fun he => hcanonical.full.resolve_right (by omega)
  rintro r ⟨s, c, f, hc, hf, hf', rfl⟩
  cases s with
  | negative =>
    have hnonpos := negative_nonpos c f
    refine ⟨fun _ => ?_, fun hle => absurd (hle.trans hnonpos) (not_le.2 hpos)⟩
    by_cases he : e' ≤ 971
    · refine Or.inr ⟨_, denotes_ofMagnitude hcanonical he, hnonpos.trans ?_⟩
      exact mul_nonneg (Nat.cast_nonneg _) (two_pow_pos _).le
    · exact Or.inl (parts_ofMagnitude_of_overflow (hfull he) he)
  | positive =>
    change ((c : ℚ) * 2 ^ f ≤ _ → _) ∧ (_ ≤ (c : ℚ) * 2 ^ f → _)
    constructor
    · intro hle
      by_cases he : e' ≤ 971
      · refine Or.inr ⟨_, denotes_ofMagnitude hcanonical he, ?_⟩
        rw [heq]
        exact le_rounded h hk hc hf hle
      · exact Or.inl (parts_ofMagnitude_of_overflow (hfull he) he)
    · intro hle
      have hrounded := rounded_le h hk hc hf hle
      rw [← heq] at hrounded
      -- a magnitude that overflows is above every representable number
      have he : e' ≤ 971 := by
        by_contra he
        exact absurd hrounded (not_le.2 (lt_of_overflow hc hf' (hfull he) (by omega)))
      exact Or.inr ⟨_, denotes_ofMagnitude hcanonical he, hrounded⟩

/-! ### Signed magnitudes -/

theorem apply_eq_mul (s : Sign) (m : ℕ) : (s.apply m : ℚ) = s.apply 1 * m := by
  cases s with
  | negative =>
    change ((-(m : ℤ) : ℤ) : ℚ) = ((-1 : ℤ) : ℚ) * m
    push_cast
    ring
  | positive =>
    change ((m : ℤ) : ℚ) = ((1 : ℤ) : ℚ) * m
    push_cast
    ring

/-- A magnitude whose mantissa is known to some accuracy is rounded once. -/
theorem rounds_roundWithAccuracy (s : Sign) {acc : Accuracy} {v : ℚ} (h : Approximates m acc v)
    (hv : 0 < v) (hk : e ≤ target m e) :
    Rounds (parts (ofParts (roundWithAccuracy .binary64 s m e acc))) (s.apply 1 * v * 2 ^ e) := by
  have hk : target m e = e + (target m e - e).toNat := by omega
  cases s with
  | positive =>
    obtain ⟨m', e', hcanonical, heq, hround⟩ := exists_roundWithAccuracy_eq .positive acc hk
    have hpositive := rounds_ofMagnitude h hv hk hcanonical heq
    rwa [hround, show ((Sign.positive.apply 1 : ℤ) : ℚ) = 1 from Int.cast_one, one_mul]
  | negative =>
    obtain ⟨m', e', hcanonical, heq, hround⟩ := exists_roundWithAccuracy_eq .negative acc hk
    have hneg : ofMagnitude .negative m' e' = (ofMagnitude .positive m' e').neg := by
      unfold ofMagnitude
      split <;> rfl
    have hnegative := (rounds_ofMagnitude h hv hk hcanonical heq).neg
    rwa [hround, hneg, parts_ofParts_neg,
      show ((Sign.negative.apply 1 : ℤ) : ℚ) = -1 from Int.cast_neg 1, neg_one_mul, neg_mul]

theorem rounds_roundWithAccuracy_exact (s : Sign) (hm : 0 < m) (hk : e ≤ target m e) :
    Rounds (parts (ofParts (roundWithAccuracy .binary64 s m e .exact))) (s.apply m * 2 ^ e) := by
  rw [apply_eq_mul]
  exact rounds_roundWithAccuracy s (Approximates.natCast m) (by exact_mod_cast hm) hk

theorem target_shiftLeft (hm : 0 < m) (e : ℤ) (j : ℕ) : target (m <<< j) (e - j) = target m e := by
  have hlog : (m <<< j).log2 = m.log2 + j := by
    have hpos : 0 < 2 ^ j := Nat.two_pow_pos j
    rw [Nat.shiftLeft_eq, Nat.log2_eq_iff (Nat.mul_pos hm hpos).ne', Nat.pow_add,
      Nat.add_right_comm, Nat.pow_add]
    exact ⟨Nat.mul_le_mul_right _ (Nat.log2_self_le hm.ne'),
      (Nat.mul_lt_mul_right hpos).2 Nat.lt_log2_self⟩
  unfold target
  rw [hlog]
  push_cast
  congr 1
  omega

theorem shiftLeft_value (m : ℕ) (e : ℤ) (j : ℕ) :
    ((m <<< j : ℕ) : ℚ) * 2 ^ (e - j) = m * 2 ^ e := by
  rw [Nat.shiftLeft_eq, zpow_sub₀ (by norm_num), zpow_natCast]
  push_cast
  field_simp

theorem rounds_round (s : Sign) (hm : 0 < m) (e : ℤ) :
    Rounds (parts (ofParts (UnpackedFloat.round .binary64 s m e))) (s.apply m * 2 ^ e) := by
  have hround : UnpackedFloat.round .binary64 s m e = roundWithAccuracy .binary64 s
      (m <<< (e - target m e).toNat) (e - (e - target m e).toNat) .exact := by
    unfold UnpackedFloat.round decreaseExponent
    dsimp only
    rw [targetExponent_eq]
  have hvalue := apply_mul_congr s (shiftLeft_value m e (e - target m e).toNat)
  rw [hround, ← hvalue]
  refine rounds_roundWithAccuracy_exact s ?_ ?_
  · rw [Nat.shiftLeft_eq]
    positivity
  · rw [target_shiftLeft hm]
    omega

theorem rounds_normalize (n e : ℤ) :
    Rounds (parts (ofParts (UnpackedFloat.normalize .binary64 n e .positive))) (n * 2 ^ e) := by
  unfold UnpackedFloat.normalize
  rcases Int.lt_trichotomy n 0 with h | rfl | h
  · rw [Int.compare_eq_lt.2 h]
    have hn : Sign.negative.apply (-n).toNat = n := by
      change -((-n).toNat : ℤ) = n
      omega
    have hround := rounds_round .negative (m := (-n).toNat) (by omega) e
    rwa [hn] at hround
  · rw [Int.cast_zero, zero_mul]
    have hzero : parts (ofParts (.zero .positive)) = .zero .positive := rfl
    refine Denotes.rounds ?_
    change Denotes (parts (ofParts (.zero .positive))) 0
    rw [hzero]
    rfl
  · rw [Int.compare_eq_gt.2 h]
    have hn : Sign.positive.apply n.toNat = n := Int.toNat_of_nonneg h.le
    have hround := rounds_round .positive (m := n.toNat) (by omega) e
    rwa [hn] at hround

/-! ### Operations on finite doubles -/

/-- The double stands for this number. -/
def Represents (a : Float) (q : ℚ) : Prop :=
  Denotes (parts a) q

instance (a : Float) (q : ℚ) : Decidable (Represents a q) :=
  inferInstanceAs (Decidable (Denotes _ _))

variable {a b : Float}

/-- A finite double is a zero, or it has a sign and a canonical magnitude. -/
theorem represents_iff : Represents a q ↔ (∃ s, parts a = .zero s ∧ q = 0) ∨
    ∃ s m e hm, parts a = .finite s m e hm ∧ Canonical m e ∧ e ≤ 971 ∧ q = s.apply m * 2 ^ e := by
  unfold Represents
  constructor
  · intro h
    cases ha : parts a with
    | notANumber =>
      rw [ha] at h
      exact h.elim
    | infinity s =>
      rw [ha] at h
      exact h.elim
    | zero s =>
      rw [ha] at h
      exact Or.inl ⟨s, rfl, h⟩
    | finite s m e hm =>
      obtain ⟨hcanonical, he⟩ := canonical_of_parts_eq ha
      rw [ha] at h
      exact Or.inr ⟨s, m, e, hm, rfl, hcanonical, he, h⟩
  · rintro (⟨s, ha, rfl⟩ | ⟨s, m, e, hm, ha, -, -, rfl⟩)
    · rw [ha]
      rfl
    · rw [ha]
      rfl

theorem Represents.representable (h : Represents a q) : Representable q := by
  rcases represents_iff.1 h with ⟨s, -, rfl⟩ | ⟨s, m, e, hm, -, hcanonical, he, rfl⟩
  · exact ⟨.positive, 0, 0, by decide, by decide, by decide, by simp [Sign.apply]⟩
  · exact ⟨s, m, e, hcanonical.lt, hcanonical.le, he, rfl⟩

theorem sub_parts_eq (x y : UnpackedFloat) :
    UnpackedFloat.sub .binary64 x y = UnpackedFloat.add .binary64 x y.neg := by
  have happly : ∀ (t : Sign) (n : ℤ), (-t).apply n = -t.apply n := by
    intro t n
    cases t
    · exact (Int.neg_neg n).symm
    · rfl
  cases x with
  | finite s m e hm =>
    cases y with
    | finite t m' e' hm' =>
      simp only [UnpackedFloat.sub, UnpackedFloat.add, UnpackedFloat.neg, happly]
      rfl
    | _ => rfl
  | _ => cases y <;> rfl

theorem decreaseExponent_value (s : Sign) (m : ℕ) {e f : ℤ} (h : f ≤ e) :
    (s.apply (decreaseExponent m e f).1 : ℚ) * 2 ^ f = s.apply m * 2 ^ e := by
  have hvalue := apply_mul_congr s (shiftLeft_value m e (e - f).toNat)
  rwa [show e - ((e - f).toNat : ℤ) = f by omega] at hvalue

theorem rounds_add_parts (hx : Denotes x q) (hy : Denotes y r) (hpx : parts (ofParts x) = x)
    (hpy : parts (ofParts y) = y) :
    Rounds (parts (ofParts (UnpackedFloat.add .binary64 x y))) (q + r) := by
  cases x with
  | notANumber => exact hx.elim
  | infinity s => exact hx.elim
  | zero s =>
    obtain rfl : q = 0 := hx
    rw [zero_add]
    cases y with
    | notANumber => exact hy.elim
    | infinity t => exact hy.elim
    | zero t =>
      obtain ⟨u, hu⟩ : IsZero (ofParts (UnpackedFloat.add .binary64 (.zero s) (.zero t))) := by
        simp only [UnpackedFloat.add]
        split <;> exact isZero_ofParts_zero _
      rw [hu]
      exact Denotes.rounds hy
    | finite t m e hm =>
      change Rounds (parts (ofParts (.finite t m e hm))) r
      rw [hpy]
      exact hy.rounds
  | finite s m e hm =>
    cases y with
    | notANumber => exact hy.elim
    | infinity t => exact hy.elim
    | zero t =>
      obtain rfl : r = 0 := hy
      change Rounds (parts (ofParts (.finite s m e hm))) (q + 0)
      rw [hpx, add_zero]
      exact hx.rounds
    | finite t m' e' hm' =>
      have hsum := rounds_normalize (s.apply (decreaseExponent m e (min e e')).1 +
        t.apply (decreaseExponent m' e' (min e e')).1) (min e e')
      rw [Int.cast_add, add_mul, decreaseExponent_value s m (min_le_left e e'),
        decreaseExponent_value t m' (min_le_right e e')] at hsum
      rw [show q = _ from hx, show r = _ from hy]
      exact hsum

/-- **A sum is rounded once.** -/
theorem rounds_add (ha : Represents a q) (hb : Represents b r) :
    Rounds (parts (a + b)) (q + r) := by
  rw [add_eq]
  exact rounds_add_parts ha hb (parts_ofParts_parts a) (parts_ofParts_parts b)

/-- **A difference is rounded once.** -/
theorem rounds_sub (ha : Represents a q) (hb : Represents b r) :
    Rounds (parts (a - b)) (q - r) := by
  rw [sub_eq, sub_parts_eq, sub_eq_add_neg]
  refine rounds_add_parts ha hb.neg (parts_ofParts_parts a) ?_
  rw [parts_ofParts_neg, parts_ofParts_parts]

theorem le_target_mul {m m' : ℕ} {e e' : ℤ} (h : Canonical m e) (h' : Canonical m' e')
    (hm : 0 < m) (hm' : 0 < m') : e + e' ≤ target (m * m') (e + e') := by
  by_cases hmin : e = -1074 ∧ e' = -1074
  · unfold target
    omega
  · have hfull : 2 ^ 52 ≤ m * m' := by
      rcases not_and_or.1 hmin with he | he
      · exact (h.full.resolve_right he).trans (Nat.le_mul_of_pos_right m hm')
      · exact (h'.full.resolve_right he).trans (Nat.le_mul_of_pos_left m' hm)
    have hlog : 52 ≤ (m * m').log2 := (Nat.le_log2 (Nat.mul_pos hm hm').ne').2 hfull
    unfold target
    omega

theorem apply_mul_apply (s t : Sign) (m n : ℤ) : s.apply m * t.apply n = (s * t).apply (m * n) := by
  cases s <;> cases t
  · exact Int.neg_mul_neg m n
  · exact Int.neg_mul m n
  · exact Int.mul_neg m n
  · rfl

theorem rounds_zero (s : Sign) : Rounds (parts (ofParts (.zero s))) 0 := by
  obtain ⟨t, ht⟩ := isZero_ofParts_zero s
  rw [ht]
  exact Denotes.rounds rfl

/-- **A product is rounded once.** -/
theorem rounds_mul (ha : Represents a q) (hb : Represents b r) :
    Rounds (parts (a * b)) (q * r) := by
  rw [mul_eq]
  rcases represents_iff.1 ha with ⟨s, hx, rfl⟩ | ⟨s, m, e, hm, hx, hcanonical, -, rfl⟩
  · rw [hx, zero_mul]
    rcases represents_iff.1 hb with ⟨t, hy, -⟩ | ⟨t, m', e', hm', hy, -, -, -⟩
    · rw [hy]
      exact rounds_zero (s * t)
    · rw [hy]
      exact rounds_zero (s * t)
  · rcases represents_iff.1 hb with ⟨t, hy, rfl⟩ | ⟨t, m', e', hm', hy, hcanonical', -, rfl⟩
    · rw [hx, hy, mul_zero]
      exact rounds_zero (s * t)
    · have hle := le_target_mul hcanonical hcanonical' hm hm'
      have hproduct := rounds_roundWithAccuracy_exact (s * t) (Nat.mul_pos hm hm') hle
      rw [Nat.cast_mul, ← apply_mul_apply, zpow_add₀ (by norm_num), Int.cast_mul,
        mul_mul_mul_comm] at hproduct
      rw [hx, hy]
      exact hproduct

end Binary64

end Mosaic
