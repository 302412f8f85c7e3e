import Mosaic.Layout

/-!
# Comparing layouts

Two layouts are equal when orientation, labels and numbers agree.  They have the same geometry when
their rectangles can be paired off without regard to labels; the pairs are found one by one, in
label order, each rectangle taking the first one that is near it and still free.
-/

namespace Mosaic

variable {α : Type}

/-- Takes out the entry at a position, moving the last entry into its place. -/
def takeOut {β : Type} (xs : List β) (i : Nat) : List β :=
  match xs.getLast? with
  | none => []
  | some last => (xs.set i last).dropLast

variable [Coordinate α]

/-- Pairs each rectangle with a near one among those still free, the first such one each time. -/
def Rect.pairOff : List (Rect α) → List (Rect α) → Bool
  | [], _ => true
  | r :: rest, free =>
    match free.findIdx? (fun f => f.Near r) with
    | none => false
    | some i => pairOff rest (takeOut free i)

namespace Layout

/-- The same orientation, the same labels, and equal numbers. -/
def Equal (s t : Layout α) : Prop :=
  s.orientation = t.orientation ∧ s.ids = t.ids ∧
    ∀ pq ∈ s.panels.zip t.panels, pq.1.rect.Equal pq.2.rect

instance (s t : Layout α) : Decidable (s.Equal t) := inferInstanceAs (Decidable (_ ∧ _))

/-- The same rectangles, whatever their labels. -/
def sameGeometry (s t : Layout α) : Bool :=
  s.size = t.size && Rect.pairOff (s.panels.map (·.rect)) (t.panels.map (·.rect))

/-- The panels of the second layout that the first one does not have as they are. -/
def changes [DecidableEq α] (s t : Layout α) : List (Panel α) :=
  t.panels.filter (· ∉ s.panels)

end Layout

end Mosaic
