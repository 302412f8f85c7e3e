import Mathlib.Data.List.Forall2
import Mathlib.Data.Option.Basic
import Mosaic.Proofs.Edits

/-!
# Removals that correspond

Which flank takes the area of a removed panel depends on the flanks alone, and of these on nothing
but what the rules compare: whether a flank is usable, whether it is a twin, and its place in the
order of flanks.  So when the flanks of two panels correspond to each other in a way that keeps
these, the heirs correspond as well.  The two panels may belong to different layouts, and the
boundaries may be exchanged.

* `Layout.FlanksMatch`: the flanks of two panels correspond, side by side.
* `FlanksMatch.heirs?`: then so do the heirs.
-/

namespace Mosaic

variable {α β : Type}

/-! ### Lists whose entries correspond -/

section Lists

variable {R : α → β → Prop} {xs : List α} {ys : List β}

theorem find?_rel {P : α → Bool} {Q : β → Bool} (hPQ : ∀ ⦃x y⦄, R x y → P x = Q y)
    (h : List.Forall₂ R xs ys) : Option.Rel R (xs.find? P) (ys.find? Q) := by
  induction h with
  | nil => exact .none
  | @cons x y xs ys hxy _ ih =>
    rw [List.find?_cons, List.find?_cons, hPQ hxy]
    cases Q y with
    | true => exact .some hxy
    | false => exact ih

theorem or_rel {a a' : Option α} {b b' : Option β} (h : Option.Rel R a b)
    (h' : Option.Rel R a' b') : Option.Rel R (a.or a') (b.or b') := by
  cases h with
  | some hxy => exact .some hxy
  | none => exact h'

end Lists

/-! ### Flanks -/

variable [Coordinate α] [Coordinate β] {R : Flank α → Flank β → Prop}

theorem Flank.preferred_rel {fs : List (Flank α)} {gs : List (Flank β)}
    (hcompare : ∀ ⦃f g f' g'⦄, R f g → R f' g' → f.compare f' = g.compare g')
    (h : List.Forall₂ R fs gs) : Option.Rel R (preferred fs) (preferred gs) := by
  cases h with
  | nil => exact .none
  | @cons f g fs gs hfg h =>
    refine .some ?_
    induction h generalizing f g with
    | nil => exact hfg
    | @cons f' g' fs gs hfg' _ ih =>
      rw [List.foldl_cons, List.foldl_cons, hcompare hfg hfg']
      split
      · exact ih hfg'
      · exact ih hfg

namespace Layout

/-- The flanks of two panels correspond, the boundaries of the first one turned, and all that the
rules ask of flanks is the same for flanks that correspond: of any flank whether it is usable, and
of usable ones whether they are twins and how they compare. -/
structure FlanksMatch (R : Flank α → Flank β → Prop) (turn : Orientation → Orientation)
    (rest : Layout α) (p : Panel α) (rest' : Layout β) (p' : Panel β) : Prop where
  orientation : rest'.orientation = turn rest.orientation
  flip : ∀ b, turn b.flip = (turn b).flip
  flank : ∀ b side, R (rest.flank p b side) (rest'.flank p' (turn b) side)
  usable : ∀ ⦃f g⦄, R f g → (f.Usable p.rect ↔ g.Usable p'.rect)
  isTwin : ∀ ⦃f g⦄, R f g → f.Usable p.rect → (f.IsTwin p.rect ↔ g.IsTwin p'.rect)
  compare : ∀ ⦃f g f' g'⦄, R f g → R f' g' → f.Usable p.rect → f'.Usable p.rect →
    f.compare f' = g.compare g'

namespace FlanksMatch

variable {turn : Orientation → Orientation} {rest : Layout α} {p : Panel α} {rest' : Layout β}
  {p' : Panel β}

theorem usableFlanks (h : FlanksMatch R turn rest p rest' p') (b : Orientation) :
    List.Forall₂ (fun f g => f.Usable p.rect ∧ R f g) (rest.usableFlanks p b)
      (rest'.usableFlanks p' (turn b)) := by
  refine (List.forall₂_and_left _ _).2 ⟨fun f hf => ?_, ?_⟩
  · obtain ⟨-, -, husable⟩ := Layout.mem_usableFlanks.1 hf
    exact husable
  unfold Layout.usableFlanks
  refine List.rel_filter (fun f g hfg => ?_) ?_
  · simpa only [decide_eq_true_eq] using h.usable hfg
  · rw [List.forall₂_map_left_iff, List.forall₂_map_right_iff, List.forall₂_same]
    exact fun side _ => h.flank b side

/-- **The heirs of panels correspond if their flanks do.** -/
theorem heirs? (h : FlanksMatch R turn rest p rest' p') :
    Option.Rel (fun f g => f.Usable p.rect ∧ R f g) (rest.heirs? p) (rest'.heirs? p') := by
  have hfirst := h.usableFlanks rest.orientation
  have hsecond := h.usableFlanks rest.orientation.flip
  have hcompare : ∀ ⦃f g f' g'⦄, f.Usable p.rect ∧ R f g → f'.Usable p.rect ∧ R f' g' →
      f.compare f' = g.compare g' :=
    fun _ _ _ _ hfg hfg' => h.compare hfg.2 hfg'.2 hfg.1 hfg'.1
  rw [heirs?_eq, heirs?_eq, h.orientation, ← h.flip]
  refine or_rel (find?_rel (fun f g hfg => ?_) (List.rel_append hfirst hsecond))
    (or_rel (Flank.preferred_rel hcompare hfirst) (Flank.preferred_rel hcompare hsecond))
  rw [decide_eq_decide]
  exact h.isTwin hfg.2 hfg.1

end FlanksMatch

end Layout

end Mosaic
