import Mosaic.Proofs.Edits
import Mosaic.Proofs.Lists
import Mosaic.Layout.Handles

/-!
# How the list of handles is made

The handles of a layout are collected panel by panel, the first one of several at the same position
is kept, and lines across the preferred direction are unified.  Here each of these passes is said
by what is in its result; nothing depends on the arithmetic.

* `Handle.mem_of_mem_distinct`, `Handle.exists_mem_distinct`: what is kept was there, and for each
  handle one that coincides with it is kept.
* `Handle.unifyLines_eq`: unifying changes the panels of a handle and nothing else.
* `Handle.mem_panels_unified`: to the panels of all handles on its line, if lines that are near each
  other are the same.
* `Layout.mem_neighbours`, `Layout.mem_handles`: the neighbours of one panel, and all handles: the
  ones that have been collected, with their lines unified.
* `Layout.filter_handles`: the handles of one boundary do not depend on those of the other.
-/

namespace Mosaic

open Coordinate

variable {α : Type} [Coordinate α]

/-! ### Distinct handles and lines -/

namespace Handle

variable {hs : List (Handle α)} {h k : Handle α} {b : Orientation} {l : α}

theorem mem_of_mem_distinct (hk : k ∈ distinct hs) : k ∈ hs := by
  have hkept : k ∈ hs.foldl (keepFirst Coincides) [] := hk
  exact (mem_foldl_keepFirst hkept).resolve_left List.not_mem_nil

/-- For each handle one that coincides with it is kept. -/
theorem exists_mem_distinct (hh : h ∈ hs) (hself : h.Coincides h) :
    ∃ k ∈ distinct hs, k.Coincides h :=
  exists_mem_foldl_keepFirst (R := Coincides) hh hself

/-- No handle is kept that coincides with an earlier one. -/
theorem pairwise_distinct (hs : List (Handle α)) :
    (distinct hs).Pairwise fun h k => ¬ h.Coincides k :=
  pairwise_foldl_keepFirst (R := Coincides) List.Pairwise.nil

/-- Of the handles of one boundary the same are kept as if there were no others. -/
theorem filter_distinct (b : Orientation) (hs : List (Handle α)) :
    (distinct hs).filter (·.boundary = b) = distinct (hs.filter (·.boundary = b)) := by
  refine filter_foldl_keepFirst (R := Coincides) fun h k hhk => ?_
  rw [hhk.1]

theorem lines_eq (b : Orientation) (hs : List (Handle α)) :
    lines b hs = ((hs.filter (·.boundary = b)).map line).foldl (keepFirst Near) [] := by
  rw [List.foldl_map]
  rfl

theorem exists_of_mem_lines (hl : l ∈ lines b hs) : ∃ h ∈ hs, h.boundary = b ∧ h.line = l := by
  rw [lines_eq] at hl
  obtain ⟨h, hh, rfl⟩ := List.mem_map.1 ((mem_foldl_keepFirst hl).resolve_left List.not_mem_nil)
  obtain ⟨hh, hb⟩ := List.mem_filter.1 hh
  exact ⟨h, hh, of_decide_eq_true hb, rfl⟩

theorem exists_mem_lines (hh : h ∈ hs) (hb : h.boundary = b) (hself : Near h.line h.line) :
    ∃ l ∈ lines b hs, Near l h.line := by
  rw [lines_eq]
  refine exists_mem_foldl_keepFirst (List.mem_map_of_mem (List.mem_filter.2 ⟨hh, ?_⟩)) hself
  exact decide_eq_true hb

/-! ### Unified lines -/

/-- A handle after the lines of a boundary have been unified. -/
def unified (b : Orientation) (hs : List (Handle α)) (h : Handle α) : Handle α :=
  match lineIndex? b (lines b hs) h with
  | none => h
  | some i =>
    { h with
      panels := ((hs.filter (lineIndex? b (lines b hs) · = some i)).flatMap (·.panels)).eraseDups }

theorem unifyLines_eq (b : Orientation) (hs : List (Handle α)) :
    unifyLines b hs = hs.map (unified b hs) := rfl

@[simp] theorem boundary_unified (b : Orientation) (hs : List (Handle α)) (h : Handle α) :
    (unified b hs h).boundary = h.boundary := by
  unfold unified
  split <;> rfl

@[simp] theorem position_unified (b : Orientation) (hs : List (Handle α)) (h : Handle α) :
    (unified b hs h).position = h.position := by
  unfold unified
  split <;> rfl

@[simp] theorem line_unified (b : Orientation) (hs : List (Handle α)) (h : Handle α) :
    (unified b hs h).line = h.line := by
  unfold line
  rw [boundary_unified, position_unified]

theorem unified_of_ne (hb : h.boundary ≠ b) : unified b hs h = h := by
  have hnone : lineIndex? b (lines b hs) h = none := if_neg hb
  simp only [unified, hnone]

/-- Unifying lines takes no panel from a handle, since every handle is on its own line if it is on
any. -/
theorem panels_subset_unified (hh : h ∈ hs) : h.panels ⊆ (unified b hs h).panels := by
  intro id hid
  cases hi : lineIndex? b (lines b hs) h with
  | none => simpa only [unified, hi] using hid
  | some i =>
    simp only [unified, hi, List.mem_eraseDups, List.mem_flatMap, List.mem_filter, decide_eq_true_eq]
    exact ⟨h, ⟨hh, hi⟩, hid⟩

/-- The handles of the other boundary play no part in unifying the lines of one. -/
theorem unified_filter (b : Orientation) (hs : List (Handle α)) :
    unified b (hs.filter (·.boundary = b)) = unified b hs := by
  have hlines : lines b (hs.filter (·.boundary = b)) = lines b hs := by
    rw [lines_eq, lines_eq, List.filter_filter]
    simp only [Bool.and_self]
  have hindex : ∀ i, (hs.filter (·.boundary = b)).filter (lineIndex? b (lines b hs) · = some i) =
      hs.filter (lineIndex? b (lines b hs) · = some i) := by
    intro i
    rw [List.filter_filter]
    refine List.filter_congr fun k _ => ?_
    by_cases hk : k.boundary = b
    · simp [hk]
    · simp [hk, lineIndex?]
  funext h
  unfold unified
  simp only [hlines, hindex]

/-- The handles of one boundary after the lines of one have been unified. -/
theorem filter_unifyLines (b b' : Orientation) (hs : List (Handle α)) :
    (unifyLines b hs).filter (·.boundary = b') =
      (hs.filter (·.boundary = b')).map (unified b (hs.filter (·.boundary = b))) := by
  rw [unifyLines_eq, List.filter_map, unified_filter]
  simp only [Function.comp_def, boundary_unified]

/-- The lines of the handles are exact: those that are near each other are the same. -/
def ExactLines (hs : List (Handle α)) : Prop :=
  ∀ h ∈ hs, ∀ k ∈ hs, Near h.line k.line ↔ h.line = k.line

/-- Handles have the same place among the lines if they are on the same line. -/
theorem lineIndex?_eq_iff (hexact : ExactLines hs) (hh : h ∈ hs) (hk : k ∈ hs)
    (hb : h.boundary = b) {i : ℕ} (hi : lineIndex? b (lines b hs) h = some i) :
    lineIndex? b (lines b hs) k = some i ↔ k.boundary = b ∧ k.line = h.line := by
  constructor
  · intro hi'
    unfold lineIndex? at hi hi'
    split_ifs at hi hi' with hkb
    obtain ⟨hlt, hnear, -⟩ := List.findIdx?_eq_some_iff_getElem.1 hi
    obtain ⟨hlt', hnear', -⟩ := List.findIdx?_eq_some_iff_getElem.1 hi'
    -- the line at this place is that of some handle, and both are near it
    obtain ⟨j, hj, -, hline⟩ := exists_of_mem_lines (List.getElem_mem hlt)
    rw [← hline] at hnear hnear'
    refine ⟨hkb, ?_⟩
    rw [← (hexact j hj k hk).1 (of_decide_eq_true hnear'),
      (hexact j hj h hh).1 (of_decide_eq_true hnear)]
  · rintro ⟨hkb, hline⟩
    unfold lineIndex? at hi ⊢
    rw [if_pos hb] at hi
    rw [if_pos hkb, hline, hi]

/-- **A unified handle is connected to the panels of all handles on its line.** -/
theorem mem_panels_unified (hexact : ExactLines hs) (hh : h ∈ hs) (hb : h.boundary = b)
    {id : PanelId} :
    id ∈ (unified b hs h).panels ↔
      ∃ k ∈ hs, (k.boundary = b ∧ k.line = h.line) ∧ id ∈ k.panels := by
  obtain ⟨l, hl, hnear⟩ := exists_mem_lines hh hb ((hexact h hh h hh).2 rfl)
  cases hi : lineIndex? b (lines b hs) h with
  | none =>
    unfold lineIndex? at hi
    rw [if_pos hb, List.findIdx?_eq_none_iff] at hi
    exact absurd hnear (of_decide_eq_false (hi l hl))
  | some i =>
    simp only [unified, hi, List.mem_eraseDups, List.mem_flatMap, List.mem_filter,
      decide_eq_true_eq, and_assoc]
    refine exists_congr fun k => and_congr_right fun hk => ?_
    rw [lineIndex?_eq_iff hexact hh hk hb hi, and_assoc]

/-- A panel of a unified handle comes from a handle on the line, with all panels of that one. -/
theorem exists_of_mem_panels_unified (hexact : ExactLines hs) (hh : h ∈ hs) {id : PanelId}
    (hid : id ∈ (unified b hs h).panels) :
    ∃ k ∈ hs, (k.boundary = h.boundary ∧ k.line = h.line) ∧ id ∈ k.panels ∧
      k.panels ⊆ (unified b hs h).panels := by
  by_cases hb : h.boundary = b
  · obtain ⟨k, hk, hline, hidk⟩ := (mem_panels_unified hexact hh hb).1 hid
    refine ⟨k, hk, ⟨hline.1.trans hb.symm, hline.2⟩, hidk, fun _ hid' => ?_⟩
    exact (mem_panels_unified hexact hh hb).2 ⟨k, hk, hline, hid'⟩
  · rw [unified_of_ne hb] at hid ⊢
    exact ⟨h, hh, ⟨rfl, rfl⟩, hid, List.Subset.refl _⟩

end Handle

/-! ### The handles of a layout -/

namespace Layout

variable {s : Layout α} {p q : Panel α} {h : Handle α} {n : Neighbour α}

theorem mem_neighbours :
    n ∈ s.neighbours p Orientation.all ↔
      n.panel ∈ s.panels ∧ n.panel.id ≠ p.id ∧
        p.rect.sideTouched n.panel.rect n.boundary = some n.side := by
  have hall : ∀ b : Orientation, b ∈ Orientation.all := by
    intro b
    cases b <;> decide
  unfold neighbours
  simp only [List.mem_flatMap, List.mem_filter, List.mem_filterMap, Option.map_eq_some_iff,
    decide_eq_true_eq]
  constructor
  · rintro ⟨q, ⟨hq, hne⟩, b, -, side, hside, rfl⟩
    exact ⟨hq, hne, hside⟩
  · rintro ⟨hq, hne, hside⟩
    exact ⟨n.panel, ⟨hq, hne⟩, n.boundary, ⟨hall _, hall _⟩, n.side, hside, rfl⟩

/-- The neighbours of a panel across the boundaries of one orientation, in label order. -/
theorem filter_neighbours (s : Layout α) (p : Panel α) (b : Orientation) :
    (s.neighbours p Orientation.all).filter (·.boundary = b) =
      (s.panels.filter (·.id ≠ p.id)).filterMap fun q =>
        (p.rect.sideTouched q.rect b).map fun side => ⟨q, b, side⟩ := by
  unfold neighbours
  rw [List.filter_flatMap, List.filterMap_eq_flatMap_toList]
  refine List.flatMap_congr fun q _ => ?_
  rw [show Orientation.all.filter (· ∈ Orientation.all) = Orientation.all by rfl]
  unfold Orientation.all
  cases hh : p.rect.sideTouched q.rect .horizontal <;>
    cases hv : p.rect.sideTouched q.rect .vertical <;> cases b <;> simp [hh, hv]

/-- The handles of a panel on the boundaries of one orientation come from the neighbours there. -/
theorem filter_handlesAt (s : Layout α) (p : Panel α) (b : Orientation) :
    (s.handlesAt p).filter (·.boundary = b) =
      let own := ((s.neighbours p Orientation.all).filter (·.boundary = b)).map (Handle.between p)
      own.map fun h => h.connectAll (own.filter fun k =>
        ¬ k.position.Near h.position ∧ h.Collinear k) := by
  have hown : ((s.neighbours p Orientation.all).map (Handle.between p)).filter (·.boundary = b) =
      ((s.neighbours p Orientation.all).filter (·.boundary = b)).map (Handle.between p) :=
    List.filter_map
  unfold handlesAt
  rw [← hown, List.filter_map]
  refine List.map_congr_left fun h hh => congrArg h.connectAll ?_
  have hb : h.boundary = b := of_decide_eq_true (List.mem_filter.1 hh).2
  rw [List.filter_filter]
  refine List.filter_congr fun k _ => ?_
  by_cases hk : k.boundary = b
  · simp [hk]
  · simp [Handle.Collinear, hb, hk, Ne.symm hk]

omit [Coordinate α] in
theorem mem_panels_connectAll {hs : List (Handle α)} {id : PanelId} :
    id ∈ (h.connectAll hs).panels ↔ id ∈ h.panels ∨ ∃ k ∈ hs, id ∈ k.panels := by
  unfold Handle.connectAll
  rw [List.mem_eraseDups, List.mem_append, List.mem_flatMap]

/-- The handles of all panels, the first kept of those that coincide. -/
def collected (s : Layout α) : List (Handle α) :=
  Handle.distinct (s.panels.flatMap s.handlesAt)

theorem exists_of_mem_collected (hh : h ∈ s.collected) : ∃ p ∈ s.panels, h ∈ s.handlesAt p :=
  List.mem_flatMap.1 (Handle.mem_of_mem_distinct hh)

theorem exists_mem_collected (hp : p ∈ s.panels) (hh : h ∈ s.handlesAt p)
    (hself : h.Coincides h) : ∃ k ∈ s.collected, k.Coincides h :=
  Handle.exists_mem_distinct (List.mem_flatMap.2 ⟨p, hp, hh⟩) hself

/-- Of two handles the later one does not coincide with the earlier one. -/
theorem pairwise_handles (s : Layout α) (workspace : Orientation) :
    (s.handles workspace).Pairwise fun h k => ¬ h.Coincides k := by
  unfold handles
  rw [Handle.unifyLines_eq, List.pairwise_map]
  refine (Handle.pairwise_distinct _).imp fun hne => ?_
  unfold Handle.Coincides at hne ⊢
  rwa [Handle.boundary_unified, Handle.boundary_unified, Handle.position_unified,
    Handle.position_unified]

/-- The handles of one boundary are collected and unified without regard to the others. -/
theorem filter_handles (s : Layout α) (workspace b : Orientation) :
    (s.handles workspace).filter (·.boundary = b) =
      (Handle.distinct (s.panels.flatMap fun p => (s.handlesAt p).filter (·.boundary = b))).map
        (Handle.unified workspace.flip (Handle.distinct (s.panels.flatMap fun p =>
          (s.handlesAt p).filter (·.boundary = workspace.flip)))) := by
  unfold handles
  rw [Handle.filter_unifyLines, Handle.filter_distinct, Handle.filter_distinct,
    List.filter_flatMap, List.filter_flatMap]

theorem mem_handles {workspace : Orientation} :
    h ∈ s.handles workspace ↔
      ∃ k ∈ s.collected, Handle.unified workspace.flip s.collected k = h := by
  unfold handles
  rw [Handle.unifyLines_eq, List.mem_map]
  rfl

end Layout

end Mosaic
