import Mathlib
import Mosaic.Coordinate.Float

/-!
# Arithmetic of doubles

What the rules for layouts need to know of doubles, for all of them, infinities and the number that
is not comparable to itself included.  The facts are read off the definition of the operations on
the parts of a double: a sign, a mantissa and an exponent, or a special value.

* `Binary64.mul_comm`: a product does not depend on the order of its factors.
* `Binary64.near_iff_abs`: doubles are near if the absolute value of their difference is at most the
  tolerance.
* `Binary64.near_sum_iff`: whether a sum is near one does not depend on the sign of the zero that
  it starts from.
-/

namespace Mosaic

open Coordinate Float.Model Float.Model.UnpackedFloat

namespace Binary64

/-! ### The parts of a double -/

/-- The sign, mantissa and exponent of a double, or its special value. -/
def parts (a : Float) : UnpackedFloat :=
  a.toModel.unpack

/-- The double nearest to some parts. -/
def ofParts (x : UnpackedFloat) : Float :=
  .ofModel (.pack x)

theorem add_eq (a b : Float) : a + b = ofParts (.add .binary64 (parts a) (parts b)) := rfl

theorem sub_eq (a b : Float) : a - b = ofParts (.sub .binary64 (parts a) (parts b)) := rfl

theorem mul_eq (a b : Float) : a * b = ofParts (.mul .binary64 (parts a) (parts b)) := rfl

theorem le_iff {a b : Float} : a ≤ b ↔ (parts a).le (parts b) := by
  change decide ((parts a).le (parts b) = true) = true ↔ _
  rw [decide_eq_true_eq]

theorem parts_zero : parts 0 = .zero .positive := rfl

theorem parts_emptySum : parts emptySum = .zero .negative := rfl

theorem parts_one : parts 1 = .finite .positive 4503599627370496 (-52) (by decide) := rfl

/-! ### Products -/

theorem sign_mul_comm (s t : Sign) : s * t = t * s := by
  cases s <;> cases t <;> rfl

theorem parts_mul_comm (x y : UnpackedFloat) :
    UnpackedFloat.mul .binary64 x y = UnpackedFloat.mul .binary64 y x := by
  cases x <;> cases y <;>
    simp only [UnpackedFloat.mul, sign_mul_comm, Nat.mul_comm, Int.add_comm]

/-- **A product does not depend on the order of its factors.** -/
theorem mul_comm (a b : Float) : a * b = b * a := by
  rw [mul_eq, mul_eq, parts_mul_comm]

/-! ### Sums -/

/-- The double is one of the two zeros. -/
def IsZero (a : Float) : Prop :=
  ∃ s, parts a = .zero s

/-- The doubles are the same, or each is a zero. -/
def SameUpToSign (a b : Float) : Prop :=
  a = b ∨ IsZero a ∧ IsZero b

theorem isZero_ofParts_zero (s : Sign) : IsZero (ofParts (.zero s)) := by
  cases s
  · exact ⟨.negative, rfl⟩
  · exact ⟨.positive, rfl⟩

theorem SameUpToSign.add {a b : Float} (h : SameUpToSign a b) (c : Float) :
    SameUpToSign (a + c) (b + c) := by
  rcases h with rfl | ⟨⟨s, ha⟩, ⟨t, hb⟩⟩
  · exact Or.inl rfl
  · rw [add_eq, add_eq, ha, hb]
    cases hc : parts c with
    | zero u =>
      right
      simp only [UnpackedFloat.add]
      constructor
      · split <;> exact isZero_ofParts_zero _
      · split <;> exact isZero_ofParts_zero _
    | _ => exact Or.inl rfl

/-- A sum changes at most in the sign of a zero with the sign of the zero that it starts from. -/
theorem sameUpToSign_foldl {a b : Float} (h : SameUpToSign a b) (xs : List Float) :
    SameUpToSign (xs.foldl (· + ·) a) (xs.foldl (· + ·) b) := by
  induction xs generalizing a b with
  | nil => exact h
  | cons x xs ih => exact ih (h.add x)

theorem SameUpToSign.near_one_iff {a b : Float} (h : SameUpToSign a b) : Near a 1 ↔ Near b 1 := by
  rcases h with rfl | ⟨⟨s, ha⟩, ⟨t, hb⟩⟩
  · rfl
  · unfold Near
    rw [sub_eq, sub_eq, sub_eq, sub_eq, ha, hb, parts_one]
    rfl

/-- **Whether a sum is near one does not depend on the zero that it starts from.** -/
theorem near_sum_iff (xs : List Float) : Near (xs.foldl (· + ·) 0) 1 ↔ Near (sum xs) 1 :=
  (sameUpToSign_foldl (Or.inr ⟨⟨_, parts_zero⟩, ⟨_, parts_emptySum⟩⟩) xs).near_one_iff

/-! ### Differences -/

theorem round_neg (s : Sign) (m : Nat) (e : Int) :
    UnpackedFloat.round .binary64 (-s) m e = (UnpackedFloat.round .binary64 s m e).neg := by
  unfold UnpackedFloat.round roundWithAccuracy
  dsimp only
  split <;> rfl

/-- The same parts with the other sign, or both are zero. -/
def Opposite (x y : UnpackedFloat) : Prop :=
  y = x.neg ∨ ∃ s t, x = .zero s ∧ y = .zero t

theorem normalize_neg (m e : Int) :
    Opposite (UnpackedFloat.normalize .binary64 m e .positive)
      (UnpackedFloat.normalize .binary64 (-m) e .positive) := by
  unfold UnpackedFloat.normalize
  rcases Int.lt_trichotomy m 0 with h | rfl | h
  · rw [Int.compare_eq_lt.2 h, Int.compare_eq_gt.2 (by omega : -m > 0)]
    exact Or.inl (round_neg .negative _ e)
  · exact Or.inr ⟨.positive, .positive, rfl, rfl⟩
  · rw [Int.compare_eq_gt.2 h, Int.compare_eq_lt.2 (by omega : -m < 0), Int.neg_neg]
    exact Or.inl (round_neg .positive _ e)

/-- Differences taken in the other order are opposite. -/
theorem opposite_sub (x y : UnpackedFloat) :
    Opposite (UnpackedFloat.sub .binary64 x y) (UnpackedFloat.sub .binary64 y x) := by
  cases x with
  | notANumber => cases y <;> exact Or.inl rfl
  | infinity s =>
    cases y with
    | infinity t => cases s <;> cases t <;> exact Or.inl rfl
    | _ => exact Or.inl rfl
  | zero s =>
    cases y with
    | notANumber => exact Or.inl rfl
    | infinity t => cases t <;> exact Or.inl rfl
    | zero t => cases s <;> cases t <;> exact Or.inr ⟨_, _, rfl, rfl⟩
    | finite t m e hm => cases t <;> exact Or.inl rfl
  | finite s m e hm =>
    cases y with
    | notANumber => exact Or.inl rfl
    | infinity t => cases t <;> exact Or.inl rfl
    | zero t => exact Or.inl rfl
    | finite t m' e' hm' =>
      simp only [UnpackedFloat.sub]
      rw [Int.min_comm e' e]
      refine Eq.subst (motive := fun d => Opposite _ (UnpackedFloat.normalize _ d _ _))
        (Int.neg_sub _ _) ?_
      exact normalize_neg _ _

/-! ### Packing keeps signs -/

/-- The same parts with the given sign. -/
def withSign (s : Sign) : UnpackedFloat → UnpackedFloat
  | .notANumber => .notANumber
  | .infinity _ => .infinity s
  | .zero _ => .zero s
  | .finite _ m e hm => .finite s m e hm

theorem neg_withSign (s : Sign) (x : UnpackedFloat) : (withSign s x).neg = withSign (-s) x := by
  cases x <;> rfl

theorem abs_eq_withSign (x : UnpackedFloat) : x.abs = withSign .positive x := by
  cases x <;> rfl

theorem unpack_packComponents (s t : Sign) (e : BitVec 11) (m : BitVec 52) :
    UnpackedFloat.unpack .binary64 (packComponents .binary64 s e m) =
      withSign s (UnpackedFloat.unpack .binary64 (packComponents .binary64 t e m)) := by
  unfold UnpackedFloat.unpack
  simp only [unpackMantissa_packComponents, unpackExponent_packComponents,
    unpackSign_packComponents, Sign.ofBitVec_toBitVec]
  split
  · split <;> rfl
  · split
    · split <;> rfl
    · rfl

theorem parts_ofParts_withSign (s : Sign) (x : UnpackedFloat) :
    parts (ofParts (withSign s x)) = withSign s (parts (ofParts x)) := by
  change UnpackedFloat.unpack .binary64 (UnpackedFloat.pack .binary64 (withSign s x)) =
    withSign s (UnpackedFloat.unpack .binary64 (UnpackedFloat.pack .binary64 x))
  cases x with
  | notANumber =>
    rw [withSign, UnpackedFloat.pack, unpack_packedNaN]
    rfl
  | infinity t => exact unpack_packComponents s t _ _
  | zero t => exact unpack_packComponents s t _ _
  | finite t m e hm =>
    unfold withSign UnpackedFloat.pack
    dsimp only
    split
    · exact unpack_packComponents s t _ _
    · split <;> exact unpack_packComponents s t _ _

theorem parts_ofParts_neg (x : UnpackedFloat) : parts (ofParts x.neg) = (parts (ofParts x)).neg := by
  have hsigned : ∀ s, parts (ofParts (withSign s x).neg) = (parts (ofParts (withSign s x))).neg := by
    intro s
    rw [neg_withSign, parts_ofParts_withSign, parts_ofParts_withSign, neg_withSign]
  cases x with
  | notANumber => rfl
  | infinity s => exact hsigned s
  | zero s => exact hsigned s
  | finite s m e hm => exact hsigned s

/-- Packing parts that have been unpacked keeps them. -/
theorem unpack_pack_unpack (b : BitVec 64) :
    UnpackedFloat.unpack .binary64 (UnpackedFloat.pack .binary64 (.unpack .binary64 b)) =
      UnpackedFloat.unpack .binary64 b := by
  rw [@pack_unpack .binary64 b (by decide)]
  split
  next h =>
    obtain ⟨hexponent, hmantissa⟩ := of_decide_eq_true h
    rw [unpack_packedNaN, UnpackedFloat.unpack, if_pos hexponent, if_neg hmantissa]
  next => rfl

theorem parts_ofParts_parts (a : Float) : parts (ofParts (parts a)) = parts a :=
  unpack_pack_unpack a.toModel.toBits.toBitVec

/-- A double is made of its parts. -/
theorem ofParts_parts (a : Float) : ofParts (parts a) = a := by
  obtain ⟨⟨bits, hvalid⟩⟩ := a
  have hpack : UnpackedFloat.pack .binary64 (.unpack .binary64 bits.toBitVec) = bits.toBitVec := by
    rw [@pack_unpack .binary64 _ (by decide)]
    split
    next h =>
      obtain ⟨hexponent, hmantissa⟩ := of_decide_eq_true h
      exact (hvalid.eq_packedNaN hexponent hmantissa).symm
    next => rfl
  refine congrArg Float.ofModel ?_
  change (⟨⟨UnpackedFloat.pack .binary64 (.unpack .binary64 bits.toBitVec)⟩, _⟩ : Float.Model) = _
  congr 1
  exact congrArg UInt64.ofBitVec hpack

/-! ### The parts of packed components -/

/-- The leading bit of the mantissa is left out of the components. -/
theorem toNat_leading_append (m : BitVec 52) : (1#1 ++ m).toNat = 4503599627370496 + m.toNat := by
  have hor := Nat.two_pow_add_eq_or_of_lt m.isLt 1
  rw [BitVec.toNat_append]
  exact hor.symm

theorem unpack_subnormal (s : Sign) {m : BitVec 52} (hm : m ≠ 0#52) :
    ∃ h, UnpackedFloat.unpack .binary64 (packComponents .binary64 s 0#11 m) =
      .finite s m.toNat (-1074) h := by
  refine ⟨by simpa [BitVec.toNat_pos, BitVec.pos_iff_ne_zero], ?_⟩
  unfold UnpackedFloat.unpack
  simp only [unpackMantissa_packComponents, unpackExponent_packComponents,
    unpackSign_packComponents, Sign.ofBitVec_toBitVec]
  rw [if_neg (by decide), if_pos trivial, dif_neg hm]
  rfl

theorem unpack_normal (s : Sign) {e : BitVec 11} (m : BitVec 52) (he : e ≠ -1#11)
    (he' : e ≠ 0#11) :
    ∃ h, UnpackedFloat.unpack .binary64 (packComponents .binary64 s e m) =
      .finite s (1#1 ++ m).toNat (e.toNat - 1075) h := by
  refine ⟨by rw [toNat_leading_append]; omega, ?_⟩
  unfold UnpackedFloat.unpack
  simp only [unpackMantissa_packComponents, unpackExponent_packComponents,
    unpackSign_packComponents, Sign.ofBitVec_toBitVec]
  rw [if_neg he, if_neg he']
  rfl

theorem exists_parts_eq (a : Float) : ∃ s e m,
    parts a = UnpackedFloat.unpack .binary64 (packComponents .binary64 s e m) := by
  have hcomponents := @packComponents_unpackSign_unpackExponent_unpackMantissa .binary64
    a.toModel.toBits.toBitVec
  exact ⟨_, _, _, congrArg (UnpackedFloat.unpack .binary64) hcomponents.symm⟩

/-! ### Nearness -/

theorem parts_abs (a : Float) : parts a.abs = (parts a).abs := by
  change parts (ofParts (parts a).abs) = (parts a).abs
  rw [abs_eq_withSign, parts_ofParts_withSign, parts_ofParts_parts]

theorem parts_tolerance : ∃ m e h, parts tolerance = .finite .positive m e h :=
  ⟨_, _, _, rfl⟩

theorem le_and_neg_le_iff {x t : UnpackedFloat} (ht : ∃ m e h, t = .finite .positive m e h) :
    x.le t ∧ x.neg.le t ↔ x.abs.le t := by
  obtain ⟨m, e, h, rfl⟩ := ht
  cases x with
  | notANumber => exact and_self_iff
  | infinity s =>
    cases s with
    | negative => exact and_iff_right rfl
    | positive => exact and_iff_left rfl
  | zero s => exact and_self_iff
  | finite s m' e' h' =>
    cases s with
    | negative => exact and_iff_right rfl
    | positive => exact and_iff_left rfl

/-- **Doubles are near if the absolute value of their difference is at most the tolerance.** -/
theorem near_iff_abs {a b : Float} : Near a b ↔ (a - b).abs ≤ tolerance := by
  unfold Near
  rw [le_iff, le_iff, le_iff, parts_abs, ← le_and_neg_le_iff parts_tolerance]
  have hopposite := opposite_sub (parts a) (parts b)
  rw [sub_eq, sub_eq]
  rcases hopposite with hneg | ⟨s, t, hs, ht⟩
  · rw [hneg, parts_ofParts_neg]
  · rw [hs, ht]
    cases s <;> cases t <;> exact iff_of_true ⟨rfl, rfl⟩ ⟨rfl, rfl⟩

end Binary64

end Mosaic
