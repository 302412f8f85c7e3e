import Mosaic.Proofs.ExactSamples

/-!
# Rounding to whole numbers

A finite double is rounded to the whole number that its number is rounded to.  So whether a double
is near a whole number is decided by its number, even if it is itself a rounded quotient, as long as
the exact quotient is whole or keeps its distance from whole numbers.

* `Binary64.represents_round`: rounding to whole numbers is exact.
* `Binary64.near_round_iff`: a rounded number is near a whole number if the exact one is.
-/

namespace Mosaic

open Coordinate Float.Model Float.Model.UnpackedFloat

namespace Binary64

variable {a b : Float} {q r : ℚ}

/-! ### The nearest whole number -/

theorem round_neg_eq (q : ℚ) : Coordinate.round (-q) = -Coordinate.round q := by
  change roundHalfAway (-q) = -roundHalfAway q
  unfold roundHalfAway
  rcases lt_trichotomy q 0 with h | rfl | h
  · rw [if_pos (neg_pos.2 h).le, if_neg (not_le.2 h), neg_neg]
  · have hfloor : ((0 : ℚ) + 1 / 2).floor = 0 := by decide +kernel
    rw [neg_zero, if_pos le_rfl, hfloor, Int.cast_zero, if_pos le_rfl, neg_zero]
  · rw [if_neg (not_le.2 (neg_neg_of_pos h)), if_pos h.le, neg_neg]

/-- A fraction by a power of two is rounded by adding one half and leaving out the places. -/
theorem round_div_two_pow (m : ℕ) {k : ℕ} (hk : 0 < k) :
    Coordinate.round ((m : ℚ) / 2 ^ k) = ((m + 1 <<< (k - 1)) >>> k : ℕ) := by
  obtain ⟨k, rfl⟩ := Nat.exists_eq_add_of_le' hk
  have hnonneg : (0 : ℚ) ≤ m / 2 ^ (k + 1) := by positivity
  have hsum : (m : ℚ) / 2 ^ (k + 1) + 1 / 2 = ((m + 2 ^ k : ℕ) : ℚ) / ((2 ^ (k + 1) : ℕ) : ℚ) := by
    push_cast
    rw [pow_succ]
    field_simp
  change roundHalfAway _ = _
  unfold roundHalfAway
  rw [if_pos hnonneg, hsum, Nat.add_sub_cancel, Nat.shiftRight_eq_div_pow, Nat.shiftLeft_eq,
    one_mul]
  change ((⌊((m + 2 ^ k : ℕ) : ℚ) / ((2 ^ (k + 1) : ℕ) : ℚ)⌋ : ℤ) : ℚ) = _
  rw [Rat.floor_natCast_div_natCast]
  norm_cast

theorem nearestWhole_eq {s : Sign} {m : ℕ} {e : ℤ} {hm : 0 < m}
    (hx : parts a = .finite s m e hm) : nearestWhole a =
      if e < 0 then
        ofParts (.round .binary64 s ((m + 1 <<< ((-e).toNat - 1)) >>> (-e).toNat) 0)
      else a := by
  have hunpack : a.toModel.unpack = .finite s m e hm := hx
  unfold nearestWhole
  rw [hunpack]
  rfl

theorem nearestWhole_of_zero {s : Sign} (hx : parts a = .zero s) : nearestWhole a = a := by
  have hunpack : a.toModel.unpack = .zero s := hx
  unfold nearestWhole
  rw [hunpack]

theorem rounds_round_natCast (s : Sign) (n : ℕ) :
    Rounds (parts (ofParts (UnpackedFloat.round .binary64 s n 0))) (s.apply n) := by
  rcases Nat.eq_zero_or_pos n with rfl | hn
  · have hzero : UnpackedFloat.round .binary64 s 0 0 = .zero s := rfl
    have happly : s.apply (0 : ℕ) = 0 := by cases s <;> rfl
    rw [hzero, happly, Int.cast_zero]
    exact rounds_zero s
  · have hround := rounds_round s hn 0
    rwa [zpow_zero, mul_one] at hround

/-- The sign does not matter for rounding. -/
theorem round_apply_mul_two_pow (s : Sign) (m : ℕ) {k : ℕ} (hk : 0 < k) :
    Coordinate.round ((s.apply m : ℚ) * 2 ^ (-(k : ℤ))) =
      s.apply ((m + 1 <<< (k - 1)) >>> k : ℕ) := by
  have hmagnitude := round_div_two_pow m hk
  rw [zpow_neg, zpow_natCast, ← div_eq_mul_inv]
  cases s with
  | positive => exact hmagnitude
  | negative =>
    change Coordinate.round (((-(m : ℤ) : ℤ) : ℚ) / 2 ^ k) = ((-(_ : ℤ) : ℤ) : ℚ)
    rw [Int.cast_neg, neg_div, round_neg_eq, Int.cast_natCast, hmagnitude, Int.cast_neg,
      Int.cast_natCast]

theorem add_half_shiftRight_lt {m k : ℕ} (hm : m < 2 ^ 53) (hk : 0 < k) :
    (m + 1 <<< (k - 1)) >>> k < 2 ^ 53 := by
  rw [Nat.shiftRight_eq_div_pow, Nat.shiftLeft_eq, one_mul,
    Nat.div_lt_iff_lt_mul (Nat.two_pow_pos k)]
  have hpow : 2 ^ (k - 1) * 2 = 2 ^ k := by
    rw [← Nat.pow_succ]
    congr 1
    omega
  have hpos : 0 < 2 ^ (k - 1) := Nat.two_pow_pos _
  have hmul : 2 ^ 53 * 2 ≤ 2 ^ 53 * 2 ^ k := Nat.mul_le_mul_left _ (by omega)
  nlinarith

/-- **Rounding to whole numbers is exact.** -/
theorem represents_round (h : Represents a q) :
    Represents (Coordinate.round a) (Coordinate.round q) := by
  change Represents (nearestWhole a) (Coordinate.round q)
  rcases represents_iff.1 h with ⟨s, hx, rfl⟩ | ⟨s, m, e, hm, hx, hcanonical, -, rfl⟩
  · have hzero : Coordinate.round (0 : ℚ) = 0 := round_intCast 0
    rwa [nearestWhole_of_zero hx, hzero]
  · rw [nearestWhole_eq hx]
    split
    next he =>
      -- the magnitude is a fraction by a power of two
      have hk : e = -((-e).toNat : ℤ) := by omega
      generalize (-e).toNat = k at hk
      subst hk
      have hpos : 0 < k := by omega
      have hlt := add_half_shiftRight_lt hcanonical.lt hpos
      rw [round_apply_mul_two_pow s m hpos]
      refine (rounds_round_natCast s _).denotes ⟨s, _, 0, hlt, by decide, by decide, ?_⟩
      rw [zpow_zero, mul_one]
    next he =>
      have hwhole : (s.apply m : ℚ) * 2 ^ e = ((s.apply m * 2 ^ e.toNat : ℤ) : ℚ) := by
        have hnat : e = e.toNat := by omega
        push_cast
        rw [← zpow_natCast, ← hnat]
      rwa [hwhole, round_intCast, ← hwhole]

/-! ### Nearness to whole numbers -/

theorem toleranceValue_lt_mesh : toleranceValue < mesh := by
  norm_num [mesh, toleranceValue]

/-- Doubles that are one width of the mesh apart are not near. -/
theorem not_near_of_mesh_le (ha : Represents a q) (hb : Represents b r) (h : mesh ≤ |q - r|) :
    ¬ Near a b := by
  have hmesh : Representable mesh := representable_of_onMesh ⟨1, by norm_num⟩ (by norm_num [mesh])
  have hapart : ∀ {a b : Float} {q r : ℚ}, Represents a q → Represents b r → mesh ≤ q - r →
      ¬ a - b ≤ tolerance := by
    intro a b q r ha hb h hle
    rw [le_iff_notAbove represents_tolerance] at hle
    exact ((rounds_sub ha hb mesh hmesh).1 h).not_notAbove toleranceValue_lt_mesh hle
  rintro ⟨hab, hba⟩
  rcases le_abs'.1 h with h | h
  · exact hapart hb ha (by linarith) hba
  · exact hapart ha hb h hab

/-- What lies between representable numbers is rounded to a finite double between them. -/
theorem Rounds.exists_between (h : Rounds (parts a) q) {l u : ℚ} (hl : Representable l)
    (hu : Representable u) (hlq : l ≤ q) (hqu : q ≤ u) : ∃ v, Represents a v ∧ l ≤ v ∧ v ≤ u := by
  rcases (h l hl).1 hlq with hinf | ⟨v, hv, hlv⟩
  · rcases (h u hu).2 hqu with hinf' | ⟨w, hw, -⟩
    · rw [hinf] at hinf'
      cases hinf'
    · rw [hinf] at hw
      exact hw.elim
  · rcases (h u hu).2 hqu with hinf | ⟨w, hw, hwu⟩
    · rw [hinf] at hv
      exact hv.elim
    · obtain rfl := hv.unique hw
      exact ⟨v, hv, hlv, hwu⟩

theorem onMesh_intCast (k : ℤ) : OnMesh k :=
  ⟨k * 524288, by unfold mesh; push_cast; ring⟩

theorem not_near_round (hgap : ∀ k : ℤ, mesh ≤ |q - k|) : ¬ Near q (Coordinate.round q) := by
  obtain ⟨j, hj⟩ := exists_int_eq_round q
  rw [hj]
  rintro ⟨hup, hdown⟩
  have habs : |q - j| ≤ tolerance := abs_le'.2 ⟨hup, by rwa [neg_sub]⟩
  exact absurd ((hgap j).trans habs) (not_le.2 tolerance_lt_mesh)

/-- What keeps the width of the mesh from whole numbers does so when it is rounded to a double,
since the numbers that are as far from the whole numbers around it are doubles. -/
theorem Rounds.exists_mesh_le (h : Rounds (parts a) q) (hq : 0 ≤ q) (hle : q ≤ 2 ^ 19)
    (hgap : ∀ k : ℤ, mesh ≤ |q - k|) : ∃ v, Represents a v ∧ ∀ k : ℤ, mesh ≤ |v - k| := by
  have hfloor : (0 : ℚ) ≤ ⌊q⌋ := by exact_mod_cast Int.floor_nonneg.2 hq
  have hlq := Int.floor_le q
  have hqu := Int.lt_floor_add_one q
  have hmesh : OnMesh mesh := ⟨1, by norm_num⟩
  have hsmall : mesh ≤ 1 := by norm_num [mesh]
  have hlow : Representable (⌊q⌋ + mesh) := by
    refine representable_of_onMesh_of_abs_le ((onMesh_intCast _).add hmesh) (abs_le.2 ?_)
    constructor <;> linarith [mesh_pos]
  have hupp : Representable (⌊q⌋ + 1 - mesh) := by
    refine representable_of_onMesh_of_abs_le (((onMesh_intCast _).add .one).sub hmesh) (abs_le.2 ?_)
    constructor <;> linarith [mesh_pos]
  have hfirst := hgap ⌊q⌋
  have hsecond := hgap (⌊q⌋ + 1)
  push_cast at hsecond
  rw [abs_of_nonneg (by linarith)] at hfirst
  rw [abs_of_neg (by linarith)] at hsecond
  obtain ⟨v, hv, hlv, hvu⟩ := h.exists_between hlow hupp (by linarith) (by linarith)
  refine ⟨v, hv, fun k => ?_⟩
  rcases le_or_gt k ⌊q⌋ with hk | hk
  · have hcast : (k : ℚ) ≤ ⌊q⌋ := by exact_mod_cast hk
    exact le_abs.2 (Or.inl (by linarith))
  · have hcast : (⌊q⌋ : ℚ) + 1 ≤ k := by exact_mod_cast hk
    exact le_abs.2 (Or.inr (by linarith))

/-- A rounded number that is whole, or one width of the mesh away from all whole numbers, is near a
whole number if the exact one is. -/
theorem near_round_iff (h : Rounds (parts a) q) (hq : 0 ≤ q) (hle : q ≤ 2 ^ 19)
    (hgap : (∃ k : ℤ, q = k) ∨ ∀ k : ℤ, mesh ≤ |q - k|) :
    Near a (Coordinate.round a) ↔ Near q (Coordinate.round q) := by
  rcases hgap with ⟨k, rfl⟩ | hgap
  · have hk : Representable (k : ℚ) := by
      refine representable_of_onMesh_of_abs_le (onMesh_intCast k) ?_
      rw [abs_of_nonneg hq]
      exact hle.trans (by norm_num)
    have ha : Represents a k := h.denotes hk
    have hround := represents_round ha
    rw [round_intCast] at hround ⊢
    exact iff_of_true ⟨sub_le_tolerance ha hround le_rfl, sub_le_tolerance hround ha le_rfl⟩
      (near_refl _)
  · obtain ⟨v, hv, hfar⟩ := h.exists_mesh_le hq hle hgap
    obtain ⟨j, hj⟩ := exists_int_eq_round v
    have hround := represents_round hv
    rw [hj] at hround
    exact iff_of_false (not_near_of_mesh_le hv hround (hfar j)) (not_near_round hgap)

end Binary64

end Mosaic
