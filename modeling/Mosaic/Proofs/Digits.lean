import Mosaic.Text.Digit
import Mathlib.Data.List.Basic

/-!
# Decimal digits

The digits that are read from a text are its ASCII digits, and the number that they stand for is the
one that is written with them.

* `Text.mapM_digit?_eq_some_iff`: a text that consists of digits.
* `Text.ofDigits_values`: the number that it stands for.
* `Text.ofDigits_toDigits`, `Text.head?_toDigits`: the digits of a number stand for it, and do not
  begin with a zero.
-/

namespace Mosaic.Text

/-- The value of a digit. -/
def digitValue (c : Char) : Nat :=
  c.toNat - '0'.toNat

theorem digit?_eq (c : Char) : digit? c = if c.isDigit then some (digitValue c) else none := by
  have hiff : ('0' ≤ c ∧ c ≤ '9') ↔ c.isDigit = true := by
    simp only [Char.isDigit, Bool.and_eq_true, decide_eq_true_eq]
    rfl
  unfold digit? digitValue
  simp only [hiff]

theorem isDigit_eq (c : Char) : isDigit c = c.isDigit := by
  unfold isDigit
  rw [digit?_eq]
  split <;> simp_all

theorem filterMap_digit? {cs : List Char} (h : ∀ c ∈ cs, c.isDigit) :
    cs.filterMap digit? = cs.map digitValue := by
  rw [← List.filterMap_eq_map]
  exact List.filterMap_congr fun c hc => by rw [digit?_eq, if_pos (h c hc), Function.comp_apply]

theorem mapM_digit?_eq_some_iff {cs : List Char} {ds : List Nat} :
    cs.mapM digit? = some ds ↔ (∀ c ∈ cs, c.isDigit) ∧ cs.map digitValue = ds := by
  induction cs generalizing ds with
  | nil => simp
  | cons c cs ih =>
    rw [List.mapM_cons, digit?_eq, List.forall_mem_cons]
    by_cases hc : c.isDigit
    · rw [if_pos hc, List.map_cons]
      change (cs.mapM digit? >>= fun es => some (digitValue c :: es)) = some ds ↔ _
      constructor
      · intro h
        obtain ⟨es, hes, h⟩ := Option.bind_eq_some_iff.1 h
        cases h
        obtain ⟨hcs, rfl⟩ := ih.1 hes
        exact ⟨⟨hc, hcs⟩, rfl⟩
      · rintro ⟨⟨-, hcs⟩, rfl⟩
        exact Option.bind_eq_some_iff.2 ⟨_, ih.2 ⟨hcs, rfl⟩, rfl⟩
    · rw [if_neg hc]
      constructor
      · nofun
      · rintro ⟨⟨h, -⟩, -⟩
        exact absurd h hc

/-- The number that digits stand for. -/
theorem ofDigits_values (cs : List Char) :
    ofDigits 10 (cs.map digitValue) = Nat.ofDigitChars 10 cs 0 := by
  unfold ofDigits Nat.ofDigitChars
  rw [List.foldl_map]
  simp only [digitValue, Nat.mul_comm 10]

/-! ### The digits of a number -/

theorem isDigit_of_mem_toDigits {n : Nat} {c : Char} (h : c ∈ Nat.toDigits 10 n) :
    isDigit c := by
  rw [isDigit_eq]
  exact Nat.isDigit_of_mem_toDigits (by decide) (by decide) h

theorem ofDigits_toDigits (n : Nat) :
    ofDigits 10 ((Nat.toDigits 10 n).filterMap digit?) = n := by
  rw [filterMap_digit? fun c => Nat.isDigit_of_mem_toDigits (by decide) (by decide),
    ofDigits_values, Nat.ofDigitChars_toDigits (by decide) (by decide)]

theorem head?_toDigits {n : Nat} (h : 0 < n) :
    ((Nat.toDigits 10 n).filterMap digit?).head? ≠ some 0 := by
  rw [filterMap_digit? fun c => Nat.isDigit_of_mem_toDigits (by decide) (by decide)]
  induction n using Nat.strongRecOn with
  | ind n ih =>
    rcases Nat.lt_or_ge n 10 with hlt | hle
    · rw [Nat.toDigits_of_lt_base hlt]
      simp [digitValue, Nat.toNat_digitChar_of_lt_ten hlt]
      omega
    · have hhead := ih (n / 10) (Nat.div_lt_self h (by decide)) (Nat.div_pos hle (by decide))
      rw [Nat.toDigits_of_base_le (by decide) hle]
      cases hcs : Nat.toDigits 10 (n / 10) with
      | nil => exact absurd hcs Nat.toDigits_ne_nil
      | cons c cs =>
        rw [hcs] at hhead
        exact hhead

end Mosaic.Text
