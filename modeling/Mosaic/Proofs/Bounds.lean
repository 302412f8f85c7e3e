import Mosaic.Proofs.Validation

/-!
# Bounds of valid layouts

Validation compares the start of each span with zero and its stop with one.  That bounds the other
two edges of a panel only if no span runs backwards: a negative extent takes the stop back into the
workspace from a start far outside it, and two negative extents make a positive area again.

* `Binary64.InBounds a`: the double lies between zero and one, up to the tolerance.
* `Span.inBounds_of_withinUnit`: both ends of an accepted span whose extent is not negative.
* `Layout.bounds_of_validate`: what validation guarantees, for all doubles.
* `Layout.validate_reversed`: a valid layout whose panel begins outside the workspace.
-/

namespace Mosaic

open Coordinate Float.Model Float.Model.UnpackedFloat

namespace Binary64

variable {x : UnpackedFloat} {q r : ℚ} {a b : Float}

/-! ### Lower bounds -/

theorem NotBelow.mono (h : NotBelow x q) (hle : r ≤ q) : NotBelow x r := by
  rcases h with hinf | ⟨u, hu, hqu⟩
  · exact Or.inl hinf
  · exact Or.inr ⟨u, hu, hle.trans hqu⟩

theorem NotAbove.mono (h : NotAbove x q) (hle : q ≤ r) : NotAbove x r := by
  rcases h with hinf | ⟨u, hu, huq⟩
  · exact Or.inl hinf
  · exact Or.inr ⟨u, hu, huq.trans hle⟩

theorem not_notAbove_positive_infinity : ¬ NotAbove (.infinity .positive) r := by
  rintro (hinf | ⟨u, hu, -⟩)
  · cases hinf
  · exact hu

theorem not_notAbove_notANumber : ¬ NotAbove .notANumber r := by
  rintro (hinf | ⟨u, hu, -⟩)
  · cases hinf
  · exact hu

theorem not_notBelow_negative_infinity : ¬ NotBelow (.infinity .negative) r :=
  fun h => not_notAbove_positive_infinity h.neg

theorem not_notBelow_notANumber : ¬ NotBelow .notANumber r :=
  fun h => not_notAbove_notANumber h.neg

theorem le_positive_infinity (hb : Represents b r) :
    (parts b).le (.infinity .positive) = true := by
  rcases represents_iff.1 hb with ⟨t, hy, -⟩ | ⟨t, m, e, hm, hy, -⟩ <;> rw [hy] <;> rfl

theorem le_negative_infinity (hb : Represents b r) :
    (parts b).le (.infinity .negative) = false := by
  rcases represents_iff.1 hb with ⟨t, hy, -⟩ | ⟨t, m, e, hm, hy, -⟩ <;> rw [hy] <;> rfl

theorem le_notANumber (x : UnpackedFloat) : x.le .notANumber = false := by
  cases x <;> rfl

/-- A double is at least a finite one if what it stands for is. -/
theorem le_iff_notBelow (hb : Represents b r) : b ≤ a ↔ NotBelow (parts a) r := by
  rcases parts_cases a with ⟨q, ha⟩ | ⟨s, ha⟩ | ha
  · rw [le_iff_of_represents hb ha]
    constructor
    · exact fun hle => Or.inr ⟨q, ha, hle⟩
    · rintro (hinf | ⟨q', ha', hle⟩)
      · unfold Represents at ha
        rw [hinf] at ha
        exact ha.elim
      · rwa [ha.unique ha']
  · rw [le_iff, ha]
    cases s with
    | negative =>
      rw [le_negative_infinity hb]
      exact iff_of_false nofun not_notBelow_negative_infinity
    | positive => exact iff_of_true (le_positive_infinity hb) (Or.inl rfl)
  · rw [le_iff, ha, le_notANumber]
    exact iff_of_false nofun not_notBelow_notANumber

theorem positive_infinity_add (hb : Represents b r) :
    UnpackedFloat.add .binary64 (.infinity .positive) (parts b) = .infinity .positive := by
  rcases represents_iff.1 hb with ⟨t, hy, -⟩ | ⟨t, m, e, hm, hy, -⟩ <;> rw [hy] <;> rfl

theorem add_positive_infinity (ha : Represents a q) :
    UnpackedFloat.add .binary64 (parts a) (.infinity .positive) = .infinity .positive := by
  rcases represents_iff.1 ha with ⟨t, hx, -⟩ | ⟨t, m, e, hm, hx, -⟩ <;> rw [hx] <;> rfl

/-- Adding a number that is not negative takes no double below a bound. -/
theorem NotBelow.add (ha : NotBelow (parts a) q) (hb : 0 ≤ b) : NotBelow (parts (a + b)) q := by
  rw [add_eq]
  rcases ha with ha | ⟨u, hu, hqu⟩ <;>
    rcases (le_iff_notBelow represents_zero).1 hb with hb | ⟨v, hv, hnonneg⟩
  · rw [ha, hb]
    exact Or.inl rfl
  · rw [ha, positive_infinity_add hv]
    exact Or.inl rfl
  · rw [hb, add_positive_infinity hu]
    exact Or.inl rfl
  · -- no representable number is crossed, and the first summand is one
    rw [← add_eq]
    have hsum := (rounds_add hu hv u (Represents.representable hu)).1
      (le_add_of_nonneg_right hnonneg)
    exact hsum.mono hqu

/-! ### Zero and one up to the tolerance -/

/-- The number that one and the tolerance add up to. -/
def limitValue : ℚ := 4503604130970123 * 2 ^ (-52 : ℤ)

theorem one_le_limitValue : 1 ≤ limitValue := by
  norm_num [limitValue]

theorem represents_limit : Represents (1 + tolerance) limitValue := by
  have hparts : parts (1 + tolerance) = .finite .positive 4503604130970123 (-52) (by decide) := rfl
  unfold Represents
  rw [hparts]
  rfl

theorem represents_neg_tolerance : Represents (-tolerance) (-toleranceValue) := by
  have hparts : parts (-tolerance) = .finite .negative 4722366482869645 (-72) (by decide) := rfl
  unfold Represents
  rw [hparts]
  exact (negative_value _ _).symm

/-- Doubles from one on are whole multiples of the last place of one. -/
theorem exists_mul_of_one_le (h : Represents a q) (hq : 1 ≤ q) :
    ∃ k : ℤ, q = k * 2 ^ (-52 : ℤ) := by
  rcases represents_iff.1 h with ⟨s, -, rfl⟩ | ⟨s, m, e, hm, -, hcanonical, -, rfl⟩
  · norm_num at hq
  · by_cases he : -52 ≤ e
    · refine ⟨s.apply m * 2 ^ (e + 52).toNat, ?_⟩
      push_cast
      rw [mul_assoc, ← zpow_natCast, ← zpow_add₀ (by norm_num)]
      congr 2
      omega
    · exfalso
      cases s with
      | negative => linarith [negative_nonpos m e]
      | positive =>
        have hlt : (m : ℚ) * 2 ^ e < 2 ^ 53 * 2 ^ (-53 : ℤ) := by
          calc (m : ℚ) * 2 ^ e < 2 ^ 53 * 2 ^ e := by
                refine mul_lt_mul_of_pos_right ?_ (two_pow_pos e)
                exact_mod_cast hcanonical.lt
            _ ≤ 2 ^ 53 * 2 ^ (-53 : ℤ) := by
                refine mul_le_mul_of_nonneg_left ?_ (by norm_num)
                exact zpow_le_zpow_right₀ (by norm_num) (by omega)
        have hone : (2 : ℚ) ^ 53 * 2 ^ (-53 : ℤ) = 1 := by norm_num
        exact absurd (hq.trans_lt hlt) (by rw [hone]; exact lt_irrefl 1)

/-- The first double above the sum of one and the tolerance is not near one. -/
theorem le_limitValue_of_near (ha : Represents a q) (h : Near a 1) : q ≤ limitValue := by
  by_contra hlt
  obtain ⟨k, rfl⟩ := exists_mul_of_one_le ha (one_le_limitValue.trans (not_le.1 hlt).le)
  have hk : (4503604130970124 : ℚ) ≤ k := by
    have hlt' : (4503604130970123 : ℚ) < k :=
      lt_of_mul_lt_mul_right (not_le.1 hlt) (two_pow_pos (-52)).le
    exact_mod_cast hlt'
  have hrepresentable : Representable (4503599628 * 2 ^ (-52 : ℤ)) :=
    ⟨.positive, 4503599628, -52, by decide, by decide, by decide, rfl⟩
  have hbelow : NotBelow (parts (a - 1)) (4503599628 * 2 ^ (-52 : ℤ)) := by
    refine (rounds_sub ha represents_one _ hrepresentable).1 ?_
    norm_num
    linarith
  refine hbelow.not_notAbove ?_ ((le_iff_notAbove represents_tolerance).1 h.1)
  norm_num [toleranceValue]

theorem notAbove_limitValue (h : AtMost a 1) : NotAbove (parts a) limitValue := by
  rcases h with hlt | hnear
  · exact ((le_iff_notAbove represents_one).1 (le_of_lt hlt)).mono one_le_limitValue
  · have hsub := (le_iff_notAbove represents_tolerance).1 hnear.1
    rcases parts_cases a with ⟨q, ha⟩ | ⟨s, ha⟩ | ha
    · exact Or.inr ⟨q, ha, le_limitValue_of_near ha hnear⟩
    · rw [sub_eq, ha] at hsub
      cases s with
      | negative => exact Or.inl ha
      | positive => exact absurd hsub not_notAbove_positive_infinity
    · rw [sub_eq, ha] at hsub
      exact absurd hsub not_notAbove_notANumber

theorem notBelow_neg_toleranceValue (h : AtMost 0 a) : NotBelow (parts a) (-toleranceValue) := by
  rcases h with hlt | hnear
  · have hzero := (le_iff_notBelow represents_zero).1 (le_of_lt hlt)
    exact hzero.mono (neg_nonpos.2 toleranceValue_pos.le)
  · have hsub := (le_iff_notAbove represents_tolerance).1 hnear.1
    rcases parts_cases a with ⟨q, ha⟩ | ⟨s, ha⟩ | ha
    · have hneg : Represents (0 - a) (0 - q) := by
        refine (rounds_sub represents_zero ha).denotes ?_
        rw [zero_sub]
        exact ha.representable.neg
      have hle := (le_iff_of_represents hneg represents_tolerance).1 hnear.1
      exact Or.inr ⟨q, ha, by linarith⟩
    · rw [sub_eq, ha] at hsub
      cases s with
      | negative => exact absurd hsub not_notAbove_positive_infinity
      | positive => exact Or.inl ha
    · rw [sub_eq, ha] at hsub
      exact absurd hsub not_notAbove_notANumber

/-- The double lies between zero and one, up to the tolerance. -/
def InBounds (a : Float) : Prop :=
  -tolerance ≤ a ∧ a ≤ 1 + tolerance

instance (a : Float) : Decidable (InBounds a) := inferInstanceAs (Decidable (_ ∧ _))

end Binary64

open Binary64

/-! ### Spans and layouts -/

namespace Span

variable {s : Span Float}

/-- An accepted span begins and stops within the bounds that are compared. -/
theorem bounds_of_withinUnit (h : s.WithinUnit) :
    -tolerance ≤ s.start ∧ s.stop ≤ 1 + tolerance :=
  ⟨(le_iff_notBelow represents_neg_tolerance).2 (notBelow_neg_toleranceValue h.1),
    (le_iff_notAbove represents_limit).2 (notAbove_limitValue h.2)⟩

/-- **Both ends of an accepted span are in bounds if its extent is not negative.**  The stop is
rounded, but never to a number below the start. -/
theorem inBounds_of_withinUnit (h : s.WithinUnit) (hextent : 0 ≤ s.extent) :
    InBounds s.start ∧ InBounds s.stop := by
  obtain ⟨hstart, hstop⟩ := bounds_of_withinUnit h
  have hlow := notBelow_neg_toleranceValue h.1
  have hupp := notAbove_limitValue h.2
  refine ⟨⟨hstart, ?_⟩, ?_, hstop⟩
  · rw [le_iff_notAbove represents_limit]
    rcases hlow with hinf | ⟨u, hu, -⟩
    · have hbelow : NotBelow (parts s.stop) (limitValue + 1) := NotBelow.add (Or.inl hinf) hextent
      exact absurd hupp (hbelow.not_notAbove (lt_add_one limitValue))
    · have hbelow : NotBelow (parts s.stop) u := NotBelow.add (Or.inr ⟨u, hu, le_rfl⟩) hextent
      exact Or.inr ⟨u, hu, not_lt.1 fun hlt => hbelow.not_notAbove hlt hupp⟩
  · exact (le_iff_notBelow represents_neg_tolerance).2 (hlow.add hextent)

end Span

namespace Layout

variable {s : Layout Float} {p : Panel Float}

theorem withinUnit_of_validate (h : s.validate = .ok ()) (hp : p ∈ s.panels) :
    p.rect.WithinUnit :=
  ((validate_eq_ok_iff (List.ne_nil_of_mem hp)).1 h).1 p hp

/-- **What validation guarantees of the edges of a panel.**  In each direction the panel does not
begin before the workspace and does not stop after it, and if its extent is not negative then both
of its ends are in bounds. -/
theorem bounds_of_validate (h : s.validate = .ok ()) (hp : p ∈ s.panels) (o : Orientation) :
    (-tolerance ≤ (p.rect.along o).start ∧ (p.rect.along o).stop ≤ 1 + tolerance) ∧
      (0 ≤ (p.rect.along o).extent →
        InBounds (p.rect.along o).start ∧ InBounds (p.rect.along o).stop) := by
  have hwithin := withinUnit_of_validate h hp
  have hspan : (p.rect.along o).WithinUnit := by
    cases o
    · exact hwithin.1
    · exact hwithin.2
  exact ⟨Span.bounds_of_withinUnit hspan, Span.inBounds_of_withinUnit hspan⟩

/-- Every edge of two columns. -/
theorem inBounds_twoColumns :
    twoColumns.validate = .ok () ∧ ∀ p ∈ twoColumns.panels, ∀ o,
      InBounds (p.rect.along o).start ∧ InBounds (p.rect.along o).stop := by
  have hvalid : twoColumns.validate = .ok () := by decide +kernel
  have hextent : ∀ p ∈ twoColumns.panels, ∀ o, 0 ≤ (p.rect.along o).extent := by decide +kernel
  exact ⟨hvalid, fun p hp o => (bounds_of_validate hvalid hp o).2 (hextent p hp o)⟩

/-- A single panel that runs backwards from outside the workspace to its far corner. -/
def reversed : Layout Float :=
  (empty .horizontal).put ⟨⟨1⟩, ⟨2, 2, -1, -1⟩⟩

theorem validate_reversed :
    reversed.validate = .ok () ∧ ∃ p ∈ reversed.panels,
      ¬ InBounds p.rect.left ∧ ¬ InBounds p.rect.top := by
  decide +kernel

end Layout

end Mosaic
