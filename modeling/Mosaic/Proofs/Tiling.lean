import Mathlib.Data.Fintype.Basic
import Mosaic.Proofs.Boxes
import Mosaic.Proofs.Edits
import Mosaic.Proofs.Exact

/-!
# Tilings of the unit square

A layout tiles the unit square when its panels have positive extents, lie in the square, and every
point of the square that is on no edge of a panel lies in exactly one panel.  The points are real.

* `Layout.Tiles`: the definition by points.
* `Layout.Perfect`: the same without points.  No two panels have a stretch in common in both
  directions, and the areas add up to one.  This is what edits are shown to preserve.
* `Layout.tiles_iff_perfect`: the two agree, since boxes without overlap cover the square if and
  only if their areas add up.
* `Span.cover_iff_sum`: the same on a line, for spans within a span.
-/

namespace Mosaic

open Coordinate

/-! ### Points -/

instance : Fintype Orientation :=
  ⟨{.horizontal, .vertical}, fun o => by cases o <;> decide⟩

instance : Fintype Side :=
  ⟨{.before, .after}, fun side => by cases side <;> decide⟩

theorem Orientation.prod_eq {M : Type} [CommMonoid M] (f : Orientation → M) :
    ∏ o, f o = f .horizontal * f .vertical := by
  change ∏ o ∈ {Orientation.horizontal, Orientation.vertical}, f o = _
  rw [Finset.prod_pair (by decide)]

/-- The coordinate of a point in the direction of an orientation. -/
def Point.along {α : Type} (v : Point α) : Orientation → α
  | .horizontal => v.x
  | .vertical => v.y

/-- The point with given coordinates. -/
def Point.ofAlong {α : Type} (f : Orientation → α) : Point α :=
  ⟨f .horizontal, f .vertical⟩

@[simp] theorem Point.along_ofAlong {α : Type} (f : Orientation → α) :
    (Point.ofAlong f).along = f := by
  funext o
  cases o <;> rfl

@[simp] theorem Point.along_onLine {α : Type} (o : Orientation) (line position : α) :
    (Point.onLine o line position).along o = position := by
  cases o <;> rfl

@[simp] theorem Point.along_flip_onLine {α : Type} (o : Orientation) (line position : α) :
    (Point.onLine o line position).along o.flip = line := by
  cases o <;> rfl

theorem Orientation.forall_iff (o : Orientation) {P : Orientation → Prop} :
    (∀ o', P o') ↔ P o ∧ P o.flip := by
  constructor
  · exact fun h => ⟨h o, h o.flip⟩
  · rintro ⟨h, h'⟩ o'
    rcases Orientation.eq_or_eq_flip o o' with rfl | rfl
    · exact h
    · exact h'

namespace Rect

/-- The least corner. -/
def lower (r : Rect ℚ) (o : Orientation) : ℝ := (r.along o).start

/-- The greatest corner. -/
def upper (r : Rect ℚ) (o : Orientation) : ℝ := (r.along o).stop

/-- The point lies in the interior of the rectangle. -/
def Holds (r : Rect ℚ) (v : Point ℝ) : Prop :=
  ∀ o, r.lower o < v.along o ∧ v.along o < r.upper o

/-- The point lies in the interior or on an edge of the rectangle. -/
def Reaches (r : Rect ℚ) (v : Point ℝ) : Prop :=
  ∀ o, r.lower o ≤ v.along o ∧ v.along o ≤ r.upper o

/-- The point lies on an edge of the rectangle. -/
def OnEdge (r : Rect ℚ) (v : Point ℝ) : Prop :=
  r.Reaches v ∧ ¬ r.Holds v

/-- The rectangles have no stretch in common in one of the two directions. -/
def Apart (r s : Rect ℚ) : Prop :=
  ∃ o, ¬ (r.along o).Meets (s.along o)

instance (r s : Rect ℚ) : Decidable (r.Apart s) := inferInstanceAs (Decidable (∃ _, _))

variable {r s : Rect ℚ} {v : Point ℝ}

theorem Apart.symm (h : r.Apart s) : s.Apart r := by
  obtain ⟨o, ho⟩ := h
  exact ⟨o, fun hm => ho hm.symm⟩

theorem apart_iff (o : Orientation) :
    r.Apart s ↔
      ¬ (r.along o).Meets (s.along o) ∨ ¬ (r.along o.flip).Meets (s.along o.flip) := by
  constructor
  · rintro ⟨o', h⟩
    rcases Orientation.eq_or_eq_flip o o' with rfl | rfl
    · exact Or.inl h
    · exact Or.inr h
  · rintro (h | h)
    · exact ⟨o, h⟩
    · exact ⟨o.flip, h⟩

theorem reaches_onLine {o : Orientation} {line position : ℝ} :
    r.Reaches (.onLine o line position) ↔
      (r.lower o ≤ position ∧ position ≤ r.upper o) ∧
        r.lower o.flip ≤ line ∧ line ≤ r.upper o.flip := by
  rw [Reaches, Orientation.forall_iff o, Point.along_onLine, Point.along_flip_onLine]

theorem lower_lt_upper (h : ∀ o, (r.along o).Positive) (o : Orientation) : r.lower o < r.upper o :=
  Rat.cast_lt.2 (Span.start_lt_stop (h o))

theorem within_real {o : Orientation} (h : 0 ≤ (r.along o).start ∧ (r.along o).stop ≤ 1) :
    0 ≤ r.lower o ∧ r.upper o ≤ 1 := by
  unfold lower upper
  exact_mod_cast h

theorem upper_sub_lower (r : Rect ℚ) (o : Orientation) :
    r.upper o - r.lower o = ((r.along o).extent : ℝ) := by
  unfold upper lower
  rw [Span.stop_eq]
  push_cast
  ring

end Rect

/-! ### Tilings -/

namespace Layout

/-- **The panels tile the unit square**: they have positive extents and lie in the square, and every
point of the square that is on no edge lies in exactly one of them. -/
structure Tiles (s : Layout ℚ) : Prop where
  positive : ∀ p ∈ s.panels, ∀ o, (p.rect.along o).Positive
  within : ∀ p ∈ s.panels, ∀ o, 0 ≤ (p.rect.along o).start ∧ (p.rect.along o).stop ≤ 1
  existsUnique : ∀ v : Point ℝ, (∀ o, 0 ≤ v.along o ∧ v.along o ≤ 1) →
    (∀ p ∈ s.panels, ¬ p.rect.OnEdge v) → ∃! p, p ∈ s.panels ∧ p.rect.Holds v

/-- The panels have positive extents, lie in the unit square and have no stretch in common in both
directions, and their areas add up to that of the square. -/
structure Perfect (s : Layout ℚ) : Prop where
  positive : ∀ p ∈ s.panels, ∀ o, (p.rect.along o).Positive
  within : ∀ p ∈ s.panels, ∀ o, 0 ≤ (p.rect.along o).start ∧ (p.rect.along o).stop ≤ 1
  apart : ∀ p ∈ s.panels, ∀ q ∈ s.panels, p ≠ q → p.rect.Apart q.rect
  area : (s.panels.map (·.rect.area)).sum = 1

variable {s : Layout ℚ}

theorem perfect_iff : s.Perfect ↔ (∀ p ∈ s.panels, ∀ o, (p.rect.along o).Positive) ∧
    (∀ p ∈ s.panels, ∀ o, 0 ≤ (p.rect.along o).start ∧ (p.rect.along o).stop ≤ 1) ∧
    (∀ p ∈ s.panels, ∀ q ∈ s.panels, p ≠ q → p.rect.Apart q.rect) ∧
    (s.panels.map (·.rect.area)).sum = 1 :=
  ⟨fun ⟨h₁, h₂, h₃, h₄⟩ => ⟨h₁, h₂, h₃, h₄⟩, fun ⟨h₁, h₂, h₃, h₄⟩ => ⟨h₁, h₂, h₃, h₄⟩⟩

instance (s : Layout ℚ) : Decidable s.Perfect :=
  decidable_of_iff _ perfect_iff.symm

/-- Every point of the square lies in a panel or on an edge of one. -/
theorem Tiles.exists_reaches (h : s.Tiles) {v : Point ℝ}
    (hv : ∀ o, 0 ≤ v.along o ∧ v.along o ≤ 1) : ∃ p ∈ s.panels, p.rect.Reaches v := by
  by_cases hedge : ∃ p ∈ s.panels, p.rect.OnEdge v
  · obtain ⟨p, hp, hreach, -⟩ := hedge
    exact ⟨p, hp, hreach⟩
  · push Not at hedge
    obtain ⟨p, ⟨hp, hholds⟩, -⟩ := h.existsUnique v hv hedge
    exact ⟨p, hp, fun o => ⟨(hholds o).1.le, (hholds o).2.le⟩⟩

/-- Every interval has a number that is no coordinate of an edge. -/
theorem exists_off_edges (s : Layout ℚ) (o : Orientation) {a b : ℝ} (hab : a < b) :
    ∃ x, a < x ∧ x < b ∧ ∀ p ∈ s.panels, x ≠ p.rect.lower o ∧ x ≠ p.rect.upper o := by
  have hfinite : {x | ∃ p ∈ s.panels, x = p.rect.lower o ∨ x = p.rect.upper o}.Finite := by
    refine (s.panels.flatMap fun p => [p.rect.lower o, p.rect.upper o]).toFinset.finite_toSet.subset
      fun x hx => ?_
    simpa using hx
  obtain ⟨x, ⟨hax, hxb⟩, hx⟩ := ((Set.Ioo_infinite hab).sdiff hfinite).nonempty
  refine ⟨x, hax, hxb, fun p hp => ⟨fun heq => hx ⟨p, hp, Or.inl heq⟩, fun heq => ?_⟩⟩
  exact hx ⟨p, hp, Or.inr heq⟩

theorem Tiles.apart (h : s.Tiles) {p q : Panel ℚ} (hp : p ∈ s.panels) (hq : q ∈ s.panels)
    (hne : p ≠ q) : p.rect.Apart q.rect := by
  by_contra hmeet
  unfold Rect.Apart at hmeet
  push Not at hmeet
  -- a point in both interiors that is on no edge at all
  have hpoint : ∀ o, ∃ x, max (p.rect.lower o) (q.rect.lower o) < x ∧
      x < min (p.rect.upper o) (q.rect.upper o) ∧
      ∀ k ∈ s.panels, x ≠ k.rect.lower o ∧ x ≠ k.rect.upper o := fun o => by
    refine s.exists_off_edges o (max_lt (lt_min ?_ ?_) (lt_min ?_ ?_))
    · exact Rect.lower_lt_upper (h.positive p hp) o
    · exact Rat.cast_lt.2 (hmeet o).1
    · exact Rat.cast_lt.2 (hmeet o).2
    · exact Rect.lower_lt_upper (h.positive q hq) o
  choose f hlow hupp hoff using hpoint
  have hpv : p.rect.Holds (.ofAlong f) := fun o => by
    rw [Point.along_ofAlong]
    exact ⟨(le_max_left _ _).trans_lt (hlow o), (hupp o).trans_le (min_le_left _ _)⟩
  have hqv : q.rect.Holds (.ofAlong f) := fun o => by
    rw [Point.along_ofAlong]
    exact ⟨(le_max_right _ _).trans_lt (hlow o), (hupp o).trans_le (min_le_right _ _)⟩
  have hunit : ∀ o, 0 ≤ (Point.ofAlong f).along o ∧ (Point.ofAlong f).along o ≤ 1 := fun o => by
    have hin := Rect.within_real (h.within p hp o)
    exact ⟨hin.1.trans (hpv o).1.le, (hpv o).2.le.trans hin.2⟩
  have hfree : ∀ k ∈ s.panels, ¬ k.rect.OnEdge (.ofAlong f) := by
    rintro k hk ⟨hreach, hnot⟩
    refine hnot fun o => ?_
    have hr := hreach o
    rw [Point.along_ofAlong] at hr ⊢
    exact ⟨lt_of_le_of_ne hr.1 (hoff o k hk).1.symm, lt_of_le_of_ne hr.2 (hoff o k hk).2⟩
  exact hne ((h.existsUnique _ hunit hfree).unique ⟨hp, hpv⟩ ⟨hq, hqv⟩)

/-- The boxes of the panels have the areas of the panels. -/
theorem sum_volume_eq (s : Layout ℚ) :
    ∑ p ∈ s.panels.toFinset, ∏ o, (p.rect.upper o - p.rect.lower o) =
      (((s.panels.map (·.rect.area)).sum : ℚ) : ℝ) := by
  rw [← List.sum_toFinset _ s.nodup_panels, Rat.cast_sum]
  refine Finset.sum_congr rfl fun p _ => ?_
  rw [Orientation.prod_eq, Rect.upper_sub_lower, Rect.upper_sub_lower, Rect.area_eq _ .horizontal]
  push_cast
  rfl

section Boxes

variable (hpos : ∀ p ∈ s.panels, ∀ o, (p.rect.along o).Positive)
  (hin : ∀ p ∈ s.panels, ∀ o, 0 ≤ (p.rect.along o).start ∧ (p.rect.along o).stop ≤ 1)
  (hapart : ∀ p ∈ s.panels, ∀ q ∈ s.panels, p ≠ q → p.rect.Apart q.rect)

include hpos in
theorem boxes_le : ∀ p ∈ s.panels.toFinset, p.rect.lower ≤ p.rect.upper :=
  fun p hp o => (Rect.lower_lt_upper (hpos p (List.mem_toFinset.1 hp)) o).le

include hin in
theorem boxes_inside : ∀ p ∈ s.panels.toFinset, (fun _ => 0) ≤ p.rect.lower ∧
    p.rect.upper ≤ fun _ => 1 :=
  fun p hp => ⟨fun o => (Rect.within_real (hin p (List.mem_toFinset.1 hp) o)).1,
    fun o => (Rect.within_real (hin p (List.mem_toFinset.1 hp) o)).2⟩

include hapart in
theorem boxes_apart : ∀ p ∈ s.panels.toFinset, ∀ q ∈ s.panels.toFinset, p ≠ q →
    ∃ o, p.rect.upper o ≤ q.rect.lower o ∨ q.rect.upper o ≤ p.rect.lower o := by
  intro p hp q hq hne
  obtain ⟨o, ho⟩ := hapart p (List.mem_toFinset.1 hp) q (List.mem_toFinset.1 hq) hne
  rw [Span.not_meets_iff] at ho
  exact ⟨o, ho.symm.imp Rat.cast_le.2 Rat.cast_le.2⟩

include hpos hin hapart

/-- The areas of panels in the square without a common stretch add up to at most one. -/
theorem sum_area_le_one : (s.panels.map (·.rect.area)).sum ≤ 1 := by
  have key := Boxes.sum_volume_le (fun p : Panel ℚ => p.rect.lower) (fun p => p.rect.upper)
    (fun _ => 0) (fun _ => 1) (fun _ => zero_le_one) (boxes_le hpos) (boxes_inside hin)
    (boxes_apart hapart)
  rw [sum_volume_eq, Orientation.prod_eq, sub_zero, one_mul] at key
  exact_mod_cast key

/-- Panels without a common stretch cover the square if and only if the areas add up to one. -/
theorem cover_iff_sum_area :
    (∀ v : Orientation → ℝ, (∀ o, 0 < v o ∧ v o < 1) →
      ∃ p ∈ s.panels, p.rect.Reaches (.ofAlong v)) ↔ (s.panels.map (·.rect.area)).sum = 1 := by
  have key := Boxes.cover_iff_sum_volume (fun p : Panel ℚ => p.rect.lower) (fun p => p.rect.upper)
    (fun _ => 0) (fun _ => 1) (fun _ => zero_le_one) (boxes_le hpos) (boxes_inside hin)
    (boxes_apart hapart)
  rw [sum_volume_eq, Orientation.prod_eq, sub_zero, one_mul] at key
  rw [← Rat.cast_inj (α := ℝ), Rat.cast_one, ← key]
  refine forall_congr' fun v => imp_congr_right fun _ => ?_
  simp only [List.mem_toFinset, Rect.Reaches, Point.along_ofAlong, Pi.le_def, forall_and]

end Boxes

/-- Every point of the square lies in a panel of a perfect layout or on an edge of one. -/
theorem Perfect.exists_reaches (h : s.Perfect) {v : Point ℝ}
    (hv : ∀ o, 0 ≤ v.along o ∧ v.along o ≤ 1) : ∃ p ∈ s.panels, p.rect.Reaches v := by
  have hcover := (cover_iff_sum_area h.positive h.within h.apart).2 h.area
  have hopen : ∀ w ∈ Boxes.interior (fun _ : Orientation => (0 : ℝ)) (fun _ => 1),
      ∃ p ∈ s.panels.toFinset, p.rect.lower ≤ w ∧ w ≤ p.rect.upper := fun w hw => by
    obtain ⟨p, hp, hreach⟩ := hcover w (Boxes.mem_interior.1 hw)
    unfold Rect.Reaches at hreach
    rw [Point.along_ofAlong] at hreach
    exact ⟨p, List.mem_toFinset.2 hp, fun o => (hreach o).1, fun o => (hreach o).2⟩
  obtain ⟨p, hp, hlow, hupp⟩ :=
    Boxes.exists_of_mem_closure hopen (Boxes.mem_closure_interior (fun _ => zero_lt_one) hv)
  exact ⟨p, List.mem_toFinset.1 hp, fun o => ⟨hlow o, hupp o⟩⟩

/-- **A layout tiles the unit square if and only if it is perfect.** -/
theorem tiles_iff_perfect : s.Tiles ↔ s.Perfect := by
  constructor
  · intro h
    have hapart : ∀ p ∈ s.panels, ∀ q ∈ s.panels, p ≠ q → p.rect.Apart q.rect :=
      fun p hp q hq => h.apart hp hq
    refine ⟨h.positive, h.within, hapart, ?_⟩
    refine (cover_iff_sum_area h.positive h.within hapart).1 fun v hv => ?_
    refine h.exists_reaches fun o => ?_
    rw [Point.along_ofAlong]
    exact ⟨(hv o).1.le, (hv o).2.le⟩
  · intro h
    refine ⟨h.positive, h.within, fun v hv hfree => ?_⟩
    obtain ⟨p, hp, hreach⟩ := h.exists_reaches hv
    -- the point is on no edge, so the panel that reaches it holds it
    have hholds : p.rect.Holds v := by
      by_contra hnot
      exact hfree p hp ⟨hreach, hnot⟩
    refine ⟨p, ⟨hp, hholds⟩, fun q ⟨hq, hq'⟩ => ?_⟩
    by_contra hne
    obtain ⟨o, ho⟩ := h.apart q hq p hp hne
    refine ho ⟨?_, ?_⟩
    · exact Rat.cast_lt.1 ((hq' o).1.trans (hholds o).2)
    · exact Rat.cast_lt.1 ((hholds o).1.trans (hq' o).2)

instance (s : Layout ℚ) : Decidable s.Tiles :=
  decidable_of_iff _ tiles_iff_perfect.symm

end Layout

/-! ### Coverage of a span -/

/-- **Spans within a span that have no stretch in common cover it if and only if their extents add
up to its extent.** -/
theorem Span.cover_iff_sum {ι : Type} {l : List ι} (hl : l.Nodup) {f : ι → Span ℚ} {s : Span ℚ}
    (hs : s.Positive) (hpos : ∀ i ∈ l, (f i).Positive) (hin : ∀ i ∈ l, s.Includes (f i))
    (hapart : ∀ i ∈ l, ∀ j ∈ l, i ≠ j → ¬ (f i).Meets (f j)) :
    (∀ t : ℝ, s.start < t → t < s.stop → ∃ i ∈ l, (f i).start ≤ t ∧ t ≤ (f i).stop) ↔
      (l.map fun i => (f i).extent).sum = s.extent := by
  classical
  have key := Boxes.cover_iff_sum_volume (κ := Unit) (I := l.toFinset)
    (fun i _ => ((f i).start : ℝ)) (fun i _ => ((f i).stop : ℝ))
    (fun _ => (s.start : ℝ)) (fun _ => (s.stop : ℝ))
    (fun _ => Rat.cast_le.2 (Span.start_lt_stop hs).le)
    (fun i hi _ => Rat.cast_le.2 (Span.start_lt_stop (hpos i (List.mem_toFinset.1 hi))).le)
    (fun i hi => ⟨fun _ => Rat.cast_le.2 (hin i (List.mem_toFinset.1 hi)).1,
      fun _ => Rat.cast_le.2 (hin i (List.mem_toFinset.1 hi)).2⟩)
    (fun i hi j hj hne => by
      have h := hapart i (List.mem_toFinset.1 hi) j (List.mem_toFinset.1 hj) hne
      rw [Span.not_meets_iff] at h
      exact ⟨(), h.symm.imp Rat.cast_le.2 Rat.cast_le.2⟩)
  have hext : ∀ u : Span ℚ, ((u.stop : ℝ) - u.start) = (u.extent : ℝ) := fun u => by
    rw [Span.stop_eq]
    push_cast
    ring
  simp only [Finset.univ_unique, Finset.prod_singleton, hext, List.mem_toFinset] at key
  rw [List.sum_toFinset _ hl, ← List.sum_toFinset (fun i => ((f i).extent : ℝ)) hl,
    ← Rat.cast_sum, Rat.cast_inj, List.sum_toFinset _ hl] at key
  rw [← key]
  constructor
  · intro h v hv
    obtain ⟨i, hi, hlow, hupp⟩ := h (v ()) (hv ()).1 (hv ()).2
    exact ⟨i, hi, fun _ => hlow, fun _ => hupp⟩
  · intro h t hlow hupp
    obtain ⟨i, hi, hv⟩ := h (fun _ => t) fun _ => ⟨hlow, hupp⟩
    exact ⟨i, hi, hv.1 (), hv.2 ()⟩

end Mosaic
