import Mathlib.Data.List.Fold
import Mathlib.Data.List.MinMax
import Mosaic.Proofs.Split

/-!
# Lines and samples

How many panels a line crosses changes only at their edges.  On the mesh the edges inside a
rectangle, thinned out up to the tolerance, are still all of them, so the lines in the middle
between two edges that follow each other speak for all lines through the rectangle.

* `Layout.lineCount line x`: the number of panels whose interior the line at the real position `x`
  crosses.
* `Span.exists_sample`: what is crossed at a position is crossed at some sample, too.
* `Layout.lineCount_le_crossings`: no line through a rectangle crosses more panels than the fullest
  sample.
* `Layout.isGreatest_crossings_of_onMesh`: the fullest sample is a line through the rectangle, so
  the crossings are the maximum.
-/

namespace Mosaic

open Coordinate

/-! ### Samples of a span -/

namespace Span

variable {x e : ℚ} {xs : List ℚ}

/-- On the mesh only repetitions are dropped. -/
theorem mem_thin (hx : Mosaic.OnMesh x) (hxs : ∀ y ∈ xs, Mosaic.OnMesh y) :
    e ∈ thin x xs ↔ e = x ∨ e ∈ xs := by
  induction xs generalizing x with
  | nil => simp [thin]
  | cons y ys ih =>
    have hy := hxs y List.mem_cons_self
    have hys := fun z hz => hxs z (List.mem_cons_of_mem y hz)
    rw [thin]
    split
    next hnear =>
      obtain rfl := (hy.near_iff hx).1 hnear
      rw [ih hx hys]
      simp
    next => rw [List.mem_cons, ih hy hys, List.mem_cons]

/-- What is kept of an ascending list is strictly ascending. -/
theorem pairwise_thin (hx : Mosaic.OnMesh x) (hxs : ∀ y ∈ xs, Mosaic.OnMesh y)
    (h : (x :: xs).Pairwise (· ≤ ·)) : (thin x xs).Pairwise (· < ·) := by
  induction xs generalizing x with
  | nil => exact List.pairwise_singleton _ _
  | cons y ys ih =>
    have hy := hxs y List.mem_cons_self
    have hys := fun z hz => hxs z (List.mem_cons_of_mem y hz)
    obtain ⟨hle, hascending⟩ := List.pairwise_cons.1 h
    rw [thin]
    split
    next hnear =>
      obtain rfl := (hy.near_iff hx).1 hnear
      exact ih hx hys hascending
    next hfar =>
      have hne : x ≠ y := fun heq => hfar ((hy.near_iff hx).2 heq.symm)
      have hlt : x < y := lt_of_le_of_ne (hle y List.mem_cons_self) hne
      refine List.pairwise_cons.2 ⟨fun e he => ?_, ih hy hys hascending⟩
      rcases (mem_thin hy hys).1 he with rfl | he
      · exact hlt
      · exact hlt.trans_le ((List.pairwise_cons.1 hascending).1 e he)

/-- A position between numbers of a strictly ascending list has a middle that lies on the same side
of every number as the position does. -/
theorem exists_mem_midpoints (h : xs.Pairwise (· < ·)) {t : ℝ} (hlow : ∃ a ∈ xs, (a : ℝ) < t)
    (hupp : ∃ b ∈ xs, t < (b : ℝ)) :
    ∃ m ∈ midpoints xs, ∀ e ∈ xs, ((e : ℝ) < t → e < m) ∧ (t < (e : ℝ) → m < e) := by
  induction xs with
  | nil => simp at hlow
  | cons x xs ih =>
    cases xs with
    | nil =>
      obtain ⟨a, ha, hat⟩ := hlow
      obtain ⟨b, hb, htb⟩ := hupp
      rw [List.mem_singleton.1 ha] at hat
      rw [List.mem_singleton.1 hb] at htb
      exact absurd (hat.trans htb) (lt_irrefl _)
    | cons y rest =>
      obtain ⟨hx, hrest⟩ := List.pairwise_cons.1 h
      have hxy := hx y List.mem_cons_self
      have hmiddle : x < half (x + y) ∧ half (x + y) < y := by
        rw [half_eq_div_two]
        constructor <;> linarith
      rw [midpoints]
      rcases lt_or_ge (y : ℝ) t with hyt | hty
      · have hupp' : ∃ b ∈ y :: rest, t < (b : ℝ) := by
          obtain ⟨b, hb, htb⟩ := hupp
          rcases List.mem_cons.1 hb with rfl | hb
          · exact absurd ((Rat.cast_lt.2 hxy).trans hyt) htb.not_gt
          · exact ⟨b, hb, htb⟩
        obtain ⟨m, hm, hsame⟩ := ih hrest ⟨y, List.mem_cons_self, hyt⟩ hupp'
        refine ⟨m, List.mem_cons_of_mem _ hm, fun e he => ?_⟩
        rcases List.mem_cons.1 he with rfl | he
        · have hey := (hsame y List.mem_cons_self).1 hyt
          exact ⟨fun _ => hxy.trans hey, fun hte => absurd ((Rat.cast_lt.2 hxy).trans hyt) hte.not_gt⟩
        · exact hsame e he
      · refine ⟨half (x + y), List.mem_cons_self, fun e he => ?_⟩
        rcases List.mem_cons.1 he with rfl | he
        · refine ⟨fun _ => hmiddle.1, fun hte => ?_⟩
          obtain ⟨a, ha, hat⟩ := hlow
          rcases List.mem_cons.1 ha with rfl | ha
          · exact absurd hat hte.not_gt
          · exact absurd (hat.trans hte) (Rat.cast_lt.2 (hx a ha)).not_gt
        · have hye : y ≤ e := by
            rcases List.mem_cons.1 he with rfl | he
            · exact le_rfl
            · exact ((List.pairwise_cons.1 hrest).1 e he).le
          exact ⟨fun het => absurd (hty.trans (Rat.cast_le.2 hye)) het.not_ge,
            fun _ => hmiddle.2.trans_le hye⟩

/-- A middle lies between two of the numbers. -/
theorem exists_lt_of_mem_midpoints (h : xs.Pairwise (· < ·)) {m : ℚ} (hm : m ∈ midpoints xs) :
    (∃ a ∈ xs, a < m) ∧ ∃ b ∈ xs, m < b := by
  induction xs with
  | nil => simp [midpoints] at hm
  | cons x xs ih =>
    cases xs with
    | nil => simp [midpoints] at hm
    | cons y rest =>
      obtain ⟨hx, hrest⟩ := List.pairwise_cons.1 h
      rw [midpoints, List.mem_cons] at hm
      rcases hm with rfl | hm
      · have hxy := hx y List.mem_cons_self
        rw [half_eq_div_two]
        exact ⟨⟨x, List.mem_cons_self, by linarith⟩,
          y, List.mem_cons_of_mem x List.mem_cons_self, by linarith⟩
      · obtain ⟨⟨a, ha, ham⟩, b, hb, hmb⟩ := ih hrest hm
        exact ⟨⟨a, List.mem_cons_of_mem x ha, ham⟩, b, List.mem_cons_of_mem x hb, hmb⟩

/-- The ends of a span and the ends of others that lie inside it. -/
def edgesWithin (s : Span ℚ) (others : List (Span ℚ)) : List ℚ :=
  s.start :: s.stop :: (others.flatMap fun u => [u.start, u.stop]).filter s.CrossedAt

variable {s : Span ℚ} {others : List (Span ℚ)}

theorem mem_edgesWithin :
    e ∈ s.edgesWithin others ↔ e = s.start ∨ e = s.stop ∨
      (∃ u ∈ others, e = u.start ∨ e = u.stop) ∧ s.CrossedAt e := by
  simp [edgesWithin]

theorem onMesh_edgesWithin (hs : s.OnMesh) (hothers : ∀ u ∈ others, u.OnMesh)
    (he : e ∈ s.edgesWithin others) : Mosaic.OnMesh e := by
  rcases mem_edgesWithin.1 he with rfl | rfl | ⟨⟨u, hu, rfl | rfl⟩, -⟩
  · exact hs.1
  · exact hs.stop
  · exact (hothers u hu).1
  · exact (hothers u hu).stop

theorem pairwise_mergeSort_precedes (es : List ℚ) :
    (es.mergeSort Coordinate.precedes).Pairwise (· ≤ ·) := by
  have hsorted : (es.mergeSort fun a b : ℚ => decide (a ≤ b)).Pairwise fun a b =>
      decide (a ≤ b) = true := by
    refine List.pairwise_mergeSort (fun a b c hab hbc => ?_) (fun a b => ?_) es
    · exact decide_eq_true ((of_decide_eq_true hab).trans (of_decide_eq_true hbc))
    · simpa using le_total a b
  exact hsorted.imp of_decide_eq_true

/-- The samples are the middles of the edges in strictly ascending order. -/
theorem exists_samples_eq (hs : s.OnMesh) (hothers : ∀ u ∈ others, u.OnMesh) :
    ∃ es : List ℚ, es.Pairwise (· < ·) ∧ (∀ e, e ∈ es ↔ e ∈ s.edgesWithin others) ∧
      s.samples others = midpoints es := by
  have hsorted := pairwise_mergeSort_precedes (s.edgesWithin others)
  have hmem : ∀ e, e ∈ (s.edgesWithin others).mergeSort Coordinate.precedes ↔
      e ∈ s.edgesWithin others := fun e => (List.mergeSort_perm _ _).mem_iff
  have hmesh : ∀ e ∈ (s.edgesWithin others).mergeSort Coordinate.precedes, Mosaic.OnMesh e :=
    fun e he => onMesh_edgesWithin hs hothers ((hmem e).1 he)
  cases hlist : (s.edgesWithin others).mergeSort Coordinate.precedes with
  | nil =>
    have hstart : s.start ∈ s.edgesWithin others := mem_edgesWithin.2 (Or.inl rfl)
    rw [← hmem, hlist] at hstart
    cases hstart
  | cons x xs =>
    rw [hlist] at hsorted hmem hmesh
    have hx := hmesh x List.mem_cons_self
    have hxs := fun y hy => hmesh y (List.mem_cons_of_mem x hy)
    refine ⟨thin x xs, pairwise_thin hx hxs hsorted, fun e => ?_, ?_⟩
    · rw [mem_thin hx hxs, ← hmem, List.mem_cons]
    · unfold edgesWithin at hlist
      simp only [samples, hlist]

/-- **A sample for every position inside a span**: each of the other spans that is crossed at the
position is crossed at the sample, too. -/
theorem exists_sample (hs : s.OnMesh) (hothers : ∀ u ∈ others, u.OnMesh) {t : ℝ}
    (ht : s.start < t ∧ t < s.stop) :
    ∃ m ∈ s.samples others, ∀ u ∈ others, (u.start < t ∧ t < u.stop) → u.CrossedAt m := by
  obtain ⟨es, hes, hmem, hsamples⟩ := exists_samples_eq hs hothers
  have hstart : s.start ∈ es := (hmem _).2 (mem_edgesWithin.2 (Or.inl rfl))
  have hstop : s.stop ∈ es := (hmem _).2 (mem_edgesWithin.2 (Or.inr (Or.inl rfl)))
  obtain ⟨m, hm, hsame⟩ := exists_mem_midpoints hes ⟨_, hstart, ht.1⟩ ⟨_, hstop, ht.2⟩
  have hinner : ∀ u ∈ others, ∀ e, e = u.start ∨ e = u.stop → s.start < e → e < s.stop → e ∈ es :=
    fun u hu e he hlow hupp =>
      (hmem e).2 (mem_edgesWithin.2 (Or.inr (Or.inr ⟨⟨u, hu, he⟩, hlow, hupp⟩)))
  refine ⟨m, hsamples ▸ hm, fun u hu hcross => ⟨?_, ?_⟩⟩
  · -- a span that begins outside begins before the whole span
    rcases le_or_gt u.start s.start with hle | hlt
    · exact hle.trans_lt ((hsame _ hstart).1 ht.1)
    · have hlt' : u.start < s.stop := Rat.cast_lt.1 (hcross.1.trans ht.2)
      exact (hsame _ (hinner u hu _ (Or.inl rfl) hlt hlt')).1 hcross.1
  · rcases le_or_gt s.stop u.stop with hle | hlt
    · exact ((hsame _ hstop).2 ht.2).trans_le hle
    · have hlt' : s.start < u.stop := Rat.cast_lt.1 (ht.1.trans hcross.2)
      exact (hsame _ (hinner u hu _ (Or.inr rfl) hlt' hlt)).2 hcross.2

/-- Every sample of a span lies inside it. -/
theorem crossedAt_of_mem_samples (hs : s.OnMesh) (hothers : ∀ u ∈ others, u.OnMesh)
    (hpos : s.Positive) {m : ℚ} (hm : m ∈ s.samples others) : s.CrossedAt m := by
  obtain ⟨es, hes, hmem, hsamples⟩ := exists_samples_eq hs hothers
  have hlt := start_lt_stop hpos
  have hwithin : ∀ e ∈ es, s.start ≤ e ∧ e ≤ s.stop := fun e he => by
    rcases mem_edgesWithin.1 ((hmem e).1 he) with rfl | rfl | ⟨-, hinside⟩
    · exact ⟨le_rfl, hlt.le⟩
    · exact ⟨hlt.le, le_rfl⟩
    · exact ⟨hinside.1.le, hinside.2.le⟩
  obtain ⟨⟨a, ha, ham⟩, b, hb, hmb⟩ := exists_lt_of_mem_midpoints hes (hsamples ▸ hm)
  exact ⟨(hwithin a ha).1.trans_lt ham, hmb.trans_le (hwithin b hb).2⟩

end Span

/-! ### Lines -/

/-- The line of the given orientation at a position crosses the interior of the rectangle. -/
def Rect.CrossedBy (r : Rect ℚ) (line : Orientation) (x : ℝ) : Prop :=
  r.lower line.flip < x ∧ x < r.upper line.flip

noncomputable instance (r : Rect ℚ) (line : Orientation) (x : ℝ) : Decidable (r.CrossedBy line x) :=
  inferInstanceAs (Decidable (_ ∧ _))

theorem Rect.crossedBy_congr {r q : Rect ℚ} {line : Orientation} {x : ℝ}
    (h : r.along line.flip = q.along line.flip) : r.CrossedBy line x ↔ q.CrossedBy line x := by
  unfold CrossedBy lower upper
  rw [h]

namespace Layout

variable {s : Layout ℚ} {line : Orientation} {r : Rect ℚ} {x : ℝ}

/-- The number of panels that the line of the given orientation at a position crosses. -/
noncomputable def lineCount (s : Layout ℚ) (line : Orientation) (x : ℝ) : ℕ :=
  s.panels.countP (·.rect.CrossedBy line x)

theorem crossedAt_le_crossings {m : ℚ}
    (hm : m ∈ (r.along line.flip).samples (s.panels.map (·.rect.along line.flip))) :
    s.crossedAt line m ≤ s.crossings line r := by
  unfold crossings
  rw [List.foldl_eq_foldr]
  exact List.le_max_of_le' 0 (List.mem_map_of_mem hm) le_rfl

theorem onMesh_spans (hs : s.OnMesh) (line : Orientation) :
    ∀ u ∈ s.panels.map (·.rect.along line.flip), u.OnMesh :=
  List.forall_mem_map.2 fun p hp => (hs p hp).along _

/-- **No line through a rectangle crosses more panels than its fullest sample.** -/
theorem lineCount_le_crossings (hs : s.OnMesh) (hr : r.OnMesh) (hx : r.CrossedBy line x) :
    s.lineCount line x ≤ s.crossings line r := by
  have hspans := onMesh_spans hs line
  obtain ⟨m, hm, hcrossed⟩ := Span.exists_sample (hr.along line.flip) hspans hx
  calc s.lineCount line x
      ≤ s.crossedAt line m := List.countP_mono_left fun p hp hcross => by
        rw [decide_eq_true_eq] at hcross ⊢
        exact hcrossed _ (List.mem_map_of_mem hp) hcross
    _ ≤ s.crossings line r := crossedAt_le_crossings hm

/-- A line at a rational position. -/
theorem lineCount_cast (s : Layout ℚ) (line : Orientation) (m : ℚ) :
    s.lineCount line m = s.crossedAt line m := by
  unfold lineCount crossedAt
  refine List.countP_congr fun p _ => ?_
  rw [decide_eq_true_eq, decide_eq_true_eq]
  exact and_congr Rat.cast_lt Rat.cast_lt

/-- The fullest of some samples. -/
theorem exists_crossings_eq
    (hne : (r.along line.flip).samples (s.panels.map (·.rect.along line.flip)) ≠ []) :
    ∃ m ∈ (r.along line.flip).samples (s.panels.map (·.rect.along line.flip)),
      s.crossedAt line m = s.crossings line r := by
  unfold crossings
  rw [List.foldl_eq_foldr, ← List.mem_map]
  exact List.maximum_mem (List.foldr_max_of_ne_nil (mt List.map_eq_nil_iff.1 hne)).symm

/-- **Sampling finds the maximum.**  The fullest sample crosses as many panels as any line through
the rectangle does. -/
theorem isGreatest_crossings_of_onMesh (hs : s.OnMesh) (hr : r.OnMesh)
    (hpos : (r.along line.flip).Positive) :
    IsGreatest (s.lineCount line '' {x | r.CrossedBy line x}) (s.crossings line r) := by
  have hspans := onMesh_spans hs line
  constructor
  · obtain ⟨x, hlow, hupp⟩ := exists_between (Rat.cast_lt (K := ℝ).2 (Span.start_lt_stop hpos))
    obtain ⟨m, hm, -⟩ := Span.exists_sample (hr.along line.flip) hspans ⟨hlow, hupp⟩
    obtain ⟨m, hm, hcount⟩ := exists_crossings_eq (List.ne_nil_of_mem hm)
    have hinside := Span.crossedAt_of_mem_samples (hr.along line.flip) hspans hpos hm
    exact ⟨m, ⟨Rat.cast_lt.2 hinside.1, Rat.cast_lt.2 hinside.2⟩,
      (lineCount_cast s line m).trans hcount⟩
  · rintro n ⟨x, hx, rfl⟩
    exact lineCount_le_crossings hs hr hx

end Layout

end Mosaic
