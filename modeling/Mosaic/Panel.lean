import Mosaic.Rect

/-!
# Panels

A panel is a rectangle with a label.  Labels are 64-bit numbers; zero is reserved for the region
that a cut has just created and that has not been given a label of its own yet.
-/

namespace Mosaic

/-- The label of a panel. -/
structure PanelId where
  number : UInt64
  deriving DecidableEq

namespace PanelId

instance : LT PanelId := ⟨fun a b => a.number < b.number⟩

instance (a b : PanelId) : Decidable (a < b) := UInt64.decLt a.number b.number

theorem lt_iff {a b : PanelId} : a < b ↔ a.number < b.number := Iff.rfl

theorem lt_irrefl (a : PanelId) : ¬ a < a :=
  UInt64.lt_irrefl a.number

theorem lt_trans {a b c : PanelId} (hab : a < b) (hbc : b < c) : a < c :=
  UInt64.lt_trans hab hbc

theorem ne_of_lt {a b : PanelId} (h : a < b) : a ≠ b := by
  rintro rfl
  exact lt_irrefl a h

theorem lt_of_not_lt_of_ne {a b : PanelId} (h : ¬ a < b) (hne : a ≠ b) : b < a := by
  refine UInt64.lt_of_le_of_ne (UInt64.not_lt.1 h) fun hba => hne ?_
  cases a
  cases b
  exact congrArg _ hba.symm

/-- The label of a region that waits for one of its own. -/
def pending : PanelId := ⟨0⟩

/-- The number in decimal, and a placeholder for the reserved label. -/
def text (id : PanelId) : String :=
  if id = pending then "<new>" else toString id.number.toNat

@[simp] theorem text_pending : pending.text = "<new>" := rfl

end PanelId

/-- A labelled rectangle. -/
structure Panel (α : Type) where
  id : PanelId
  rect : Rect α
  deriving DecidableEq

end Mosaic
