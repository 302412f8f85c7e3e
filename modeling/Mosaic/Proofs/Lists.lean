import Mathlib.Data.List.Nodup
import Mathlib.Data.List.Pairwise

/-!
# The first entries of a list

Of entries that are related to each other a list may keep the first one only.  What is kept has no
two related entries and has a relative of every entry that was dropped.

* `keepFirst`: adds an entry to those that have been kept.
* `pairwise_foldl_keepFirst`, `exists_mem_foldl_keepFirst`: no entry too many, and none missing.
* `filter_foldl_keepFirst`, `foldl_keepFirst_map`: parts of the list, and its images.
* `nodup_eraseDups`: the same for equal entries.
-/

namespace Mosaic

/-! ### Keeping the first of related entries -/

variable {β : Type} {R : β → β → Prop} [DecidableRel R] {kept xs : List β} {x y : β}

/-- Adds an entry unless it is related to one that has been kept. -/
def keepFirst (R : β → β → Prop) [DecidableRel R] (kept : List β) (x : β) : List β :=
  if kept.any (R · x) then kept else kept ++ [x]

theorem mem_keepFirst (h : y ∈ keepFirst R kept x) : y ∈ kept ∨ y = x := by
  unfold keepFirst at h
  split at h
  · exact Or.inl h
  · rwa [List.mem_append, List.mem_singleton] at h

theorem mem_keepFirst_of_mem (h : y ∈ kept) : y ∈ keepFirst R kept x := by
  unfold keepFirst
  split
  · exact h
  · exact List.mem_append_left _ h

theorem exists_mem_keepFirst (hx : R x x) : ∃ k ∈ keepFirst R kept x, R k x := by
  unfold keepFirst
  split
  next h =>
    obtain ⟨k, hk, hkx⟩ := List.any_eq_true.1 h
    exact ⟨k, hk, of_decide_eq_true hkx⟩
  next => exact ⟨x, List.mem_append_right _ (List.mem_singleton_self x), hx⟩

theorem mem_foldl_keepFirst (h : y ∈ xs.foldl (keepFirst R) kept) : y ∈ kept ∨ y ∈ xs := by
  induction xs generalizing kept with
  | nil => exact Or.inl h
  | cons x xs ih =>
    rcases ih h with h | h
    · rcases mem_keepFirst h with h | rfl
      · exact Or.inl h
      · exact Or.inr List.mem_cons_self
    · exact Or.inr (List.mem_cons_of_mem x h)

theorem mem_foldl_keepFirst_of_mem (h : y ∈ kept) : y ∈ xs.foldl (keepFirst R) kept := by
  induction xs generalizing kept with
  | nil => exact h
  | cons x xs ih => exact ih (mem_keepFirst_of_mem h)

theorem exists_mem_foldl_keepFirst (hx : x ∈ xs) (hxx : R x x) :
    ∃ k ∈ xs.foldl (keepFirst R) kept, R k x := by
  induction xs generalizing kept with
  | nil => cases hx
  | cons y ys ih =>
    rw [List.foldl_cons]
    rcases List.mem_cons.1 hx with rfl | hx
    · obtain ⟨k, hk, hkx⟩ : ∃ k ∈ keepFirst R kept x, R k x := exists_mem_keepFirst hxx
      exact ⟨k, mem_foldl_keepFirst_of_mem hk, hkx⟩
    · exact ih hx

theorem pairwise_keepFirst (h : kept.Pairwise fun x y => ¬ R x y) :
    (keepFirst R kept x).Pairwise fun x y => ¬ R x y := by
  unfold keepFirst
  split
  · exact h
  next hany =>
    refine List.pairwise_append.2 ⟨h, List.pairwise_singleton _ _, fun k hk y hy hky => ?_⟩
    rw [List.mem_singleton.1 hy] at hky
    exact hany (List.any_eq_true.2 ⟨k, hk, decide_eq_true hky⟩)

/-- No entry is kept that an earlier one is related to. -/
theorem pairwise_foldl_keepFirst (h : kept.Pairwise fun x y => ¬ R x y) :
    (xs.foldl (keepFirst R) kept).Pairwise fun x y => ¬ R x y := by
  induction xs generalizing kept with
  | nil => exact h
  | cons x xs ih => exact ih (pairwise_keepFirst h)

/-- Entries of one kind are kept as if there were no others, if only entries of the same kind are
related. -/
theorem filter_foldl_keepFirst {P : β → Bool} (hR : ∀ ⦃x y⦄, R x y → P x = P y) :
    (xs.foldl (keepFirst R) kept).filter P = (xs.filter P).foldl (keepFirst R) (kept.filter P) := by
  induction xs generalizing kept with
  | nil => rfl
  | cons x xs ih =>
    rw [List.foldl_cons, ih, List.filter_cons]
    split
    next hx =>
      rw [List.foldl_cons]
      have hany : (kept.filter P).any (R · x) = kept.any (R · x) := by
        rw [List.any_filter]
        refine List.any_congr rfl fun k => ?_
        by_cases hk : R k x
        · simp [hk, hR hk, hx]
        · simp [hk]
      have hstep : (keepFirst R kept x).filter P = keepFirst R (kept.filter P) x := by
        unfold keepFirst
        rw [hany]
        split
        · rfl
        · rw [List.filter_append, List.filter_cons_of_pos hx, List.filter_nil]
      rw [hstep]
    next hx =>
      have hstep : (keepFirst R kept x).filter P = kept.filter P := by
        unfold keepFirst
        split
        · rfl
        · rw [List.filter_append, List.filter_cons_of_neg hx, List.filter_nil, List.append_nil]
      rw [hstep]

/-- Images under a map that keeps the relation are kept along with their originals. -/
theorem foldl_keepFirst_map {γ : Type} {S : γ → γ → Prop} [DecidableRel S] {f : β → γ}
    (hS : ∀ x ∈ kept ++ xs, ∀ y ∈ kept ++ xs, S (f x) (f y) ↔ R x y) :
    (xs.map f).foldl (keepFirst S) (kept.map f) = (xs.foldl (keepFirst R) kept).map f := by
  induction xs generalizing kept with
  | nil => rfl
  | cons x xs ih =>
    have hstep : keepFirst S (kept.map f) (f x) = (keepFirst R kept x).map f := by
      have hany : (kept.map f).any (fun y => decide (S y (f x))) = kept.any (fun y => R y x) := by
        rw [List.any_map, Bool.eq_iff_iff, List.any_eq_true, List.any_eq_true]
        refine exists_congr fun y => and_congr_right fun hy => ?_
        rw [Function.comp_apply, decide_eq_true_eq, decide_eq_true_eq]
        exact hS y (List.mem_append_left _ hy) x (by simp)
      unfold keepFirst
      rw [hany]
      split
      · rfl
      · rw [List.map_append, List.map_singleton]
    rw [List.map_cons, List.foldl_cons, List.foldl_cons, hstep, ih]
    -- what has been kept is among the entries from before
    have hsubset : ∀ y ∈ keepFirst R kept x ++ xs, y ∈ kept ++ x :: xs := by
      intro y hy
      rcases List.mem_append.1 hy with hy | hy
      · rcases mem_keepFirst hy with hy | rfl
        · exact List.mem_append_left _ hy
        · simp
      · simp [hy]
    exact fun y hy z hz => hS y (hsubset y hy) z (hsubset z hz)

theorem foldl_keepFirst_nil_map {γ : Type} {S : γ → γ → Prop} [DecidableRel S] {f : β → γ}
    (hS : ∀ x ∈ xs, ∀ y ∈ xs, S (f x) (f y) ↔ R x y) :
    (xs.map f).foldl (keepFirst S) [] = (xs.foldl (keepFirst R) []).map f :=
  have hkept : ∀ x ∈ [] ++ xs, ∀ y ∈ [] ++ xs, S (f x) (f y) ↔ R x y := by rwa [List.nil_append]
  foldl_keepFirst_map hkept

/-! ### Equal entries and places of entries -/

/-- Erasing duplicates leaves none. -/
theorem nodup_eraseDups [BEq β] [LawfulBEq β] (xs : List β) : xs.eraseDups.Nodup := by
  match xs with
  | [] => exact List.nodup_nil
  | x :: xs =>
    rw [List.eraseDups_cons, List.nodup_cons]
    refine ⟨fun hx => ?_, nodup_eraseDups _⟩
    simpa using (List.mem_filter.1 (List.mem_eraseDups.1 hx)).2
termination_by xs.length
decreasing_by exact Nat.lt_succ_of_le (List.length_filter_le _ _)

/-- Entries are found at the same place by tests that agree on all of them. -/
theorem findIdx?_congr {P Q : β → Bool} (h : ∀ x ∈ xs, P x = Q x) :
    xs.findIdx? P = xs.findIdx? Q := by
  induction xs with
  | nil => rfl
  | cons x xs ih =>
    obtain ⟨hx, hxs⟩ := List.forall_mem_cons.1 h
    rw [List.findIdx?_cons, List.findIdx?_cons, hx, ih hxs]

end Mosaic
