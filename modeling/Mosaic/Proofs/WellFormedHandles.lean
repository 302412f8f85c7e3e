import Mathlib.Data.List.Forall2
import Mathlib.Data.List.Perm.Subperm
import Mosaic.Coordinate.Float
import Mosaic.Proofs.HandleList

/-!
# Handles of any layout

A layout that was read from a file may hold panels that overlap, have no extent or have coordinates
that are not comparable to themselves.  Its handles are well formed all the same: every pass that
makes them adds panels of the layout to those of a handle, and none of them moves a handle.

* `Handle.WellFormed`: connected to two panels of a layout or more, and to none of them twice.
* `WellFormed.collect`: the step of all passes, which replaces the panels by more of them.
* `Layout.forall₂_handles`: the two orientations of the workspace give the same handles in the same
  order, connected to more panels where lines are unified.
* `Layout.wellFormed_handles`: what holds of the handles of any layout.
-/

namespace Mosaic

open Coordinate

variable {α : Type}

/-! ### Well-formed handles -/

namespace Handle

/-- The handle is connected to at least two panels of the layout, and to none of them twice. -/
structure WellFormed (h : Handle α) (s : Layout α) : Prop where
  two_le : 2 ≤ h.panels.length
  nodup : h.panels.Nodup
  subset : h.panels ⊆ s.ids

variable {s : Layout α} {h : Handle α} {hs : List (Handle α)} {b : Orientation}

/-- A well-formed handle stays so when more panels of the layout are collected for it. -/
theorem WellFormed.collect (h' : h.WellFormed s) {ids : List PanelId} (hsub : h.panels ⊆ ids)
    (hids : ids ⊆ s.ids) : WellFormed { h with panels := ids.eraseDups } s where
  two_le := Nat.le_trans h'.two_le
    (h'.nodup.length_le_of_subset fun _ hid => List.mem_eraseDups.2 (hsub hid))
  nodup := nodup_eraseDups ids
  subset := fun _ hid => hids (List.mem_eraseDups.1 hid)

theorem flatMap_panels_subset (hs' : ∀ k ∈ hs, k.WellFormed s) :
    hs.flatMap (·.panels) ⊆ s.ids := by
  intro id hid
  obtain ⟨k, hk, hidk⟩ := List.mem_flatMap.1 hid
  exact (hs' k hk).subset hidk

theorem WellFormed.connectAll (h' : h.WellFormed s) (hs' : ∀ k ∈ hs, k.WellFormed s) :
    (h.connectAll hs).WellFormed s := by
  refine h'.collect (List.subset_append_left _ _) (List.append_subset.2 ⟨h'.subset, ?_⟩)
  exact flatMap_panels_subset hs'

theorem WellFormed.unified [Coordinate α] (hs' : ∀ k ∈ hs, k.WellFormed s) (hh : h ∈ hs) :
    (Handle.unified b hs h).WellFormed s := by
  cases hi : lineIndex? b (lines b hs) h with
  | none => simpa only [Handle.unified, hi] using hs' h hh
  | some i =>
    simp only [Handle.unified, hi]
    refine (hs' h hh).collect (fun id hid => ?_) (flatMap_panels_subset fun k hk => ?_)
    · exact List.mem_flatMap.2 ⟨h, List.mem_filter.2 ⟨hh, decide_eq_true hi⟩, hid⟩
    · exact hs' k (List.mem_filter.1 hk).1

end Handle

namespace Layout

variable [Coordinate α] {s : Layout α} {p : Panel α} {h : Handle α} {n : Neighbour α}
  {workspace : Orientation}

theorem wellFormed_between (hp : p ∈ s.panels) (hn : n ∈ s.neighbours p Orientation.all) :
    (Handle.between p n).WellFormed s := by
  obtain ⟨hpanel, hne, -⟩ := mem_neighbours.1 hn
  refine ⟨Nat.le_refl 2, by simpa [Handle.between] using hne.symm, fun id hid => ?_⟩
  rcases List.mem_pair.1 hid with rfl | rfl
  · exact mem_ids.2 ⟨p, hp, rfl⟩
  · exact mem_ids.2 ⟨n.panel, hpanel, rfl⟩

theorem wellFormed_of_mem_handlesAt (hp : p ∈ s.panels) (hh : h ∈ s.handlesAt p) :
    h.WellFormed s := by
  have hown : ∀ k ∈ (s.neighbours p Orientation.all).map (Handle.between p), k.WellFormed s :=
    List.forall_mem_map.2 fun n hn => wellFormed_between hp hn
  obtain ⟨k, hk, rfl⟩ := List.mem_map.1 hh
  exact (hown k hk).connectAll fun j hj => hown j (List.mem_filter.1 hj).1

theorem wellFormed_of_mem_collected (hh : h ∈ s.collected) : h.WellFormed s := by
  obtain ⟨p, hp, hhp⟩ := exists_of_mem_collected hh
  exact wellFormed_of_mem_handlesAt hp hhp

theorem wellFormed_of_mem_handles (hh : h ∈ s.handles workspace) : h.WellFormed s := by
  obtain ⟨k, hk, rfl⟩ := mem_handles.1 hh
  exact .unified (fun j hj => wellFormed_of_mem_collected hj) hk

/-! ### The two orientations of the workspace -/

/-- A handle of one workspace and its counterpart in the workspace of the other orientation.  They
are at the same place, and each workspace connects more panels on the boundaries across it, whose
lines it unifies. -/
structure Counterparts (workspace : Orientation) (h k : Handle α) : Prop where
  boundary : h.boundary = k.boundary
  position : h.position = k.position
  across : h.boundary = workspace.flip → k.panels ⊆ h.panels
  along : h.boundary = workspace → h.panels ⊆ k.panels

/-- **The orientation of the workspace decides nothing but what handles are connected to.** -/
theorem forall₂_handles (s : Layout α) (workspace : Orientation) :
    List.Forall₂ (Counterparts workspace) (s.handles workspace) (s.handles workspace.flip) := by
  have hhandles : ∀ w, s.handles w = s.collected.map (Handle.unified w.flip s.collected) :=
    fun _ => rfl
  rw [hhandles, hhandles, Orientation.flip_flip, List.forall₂_map_left_iff,
    List.forall₂_map_right_iff, List.forall₂_same]
  intro c hc
  refine ⟨?_, ?_, fun hb => ?_, fun hb => ?_⟩
  · rw [Handle.boundary_unified, Handle.boundary_unified]
  · rw [Handle.position_unified, Handle.position_unified]
  · rw [Handle.boundary_unified] at hb
    rw [Handle.unified_of_ne (b := workspace) (by rw [hb]; exact Orientation.flip_ne _)]
    exact Handle.panels_subset_unified hc
  · rw [Handle.boundary_unified] at hb
    rw [Handle.unified_of_ne (b := workspace.flip) (by rw [hb]; exact (Orientation.flip_ne _).symm)]
    exact Handle.panels_subset_unified hc

/-! ### All handles -/

/-- **The handles of any layout are well formed.**  Whatever the numbers are, a handle is connected
to at least two panels of the layout and to none twice, no handle is near an earlier one of the same
boundary, and the handles of the two orientations of the workspace have the same boundaries and
positions in the same order, those on unified lines being connected to more panels. -/
theorem wellFormed_handles (s : Layout α) (workspace : Orientation) :
    (∀ h ∈ s.handles workspace, h.WellFormed s) ∧
      (s.handles workspace).Pairwise (fun h k =>
        h.boundary = k.boundary → ¬ k.position.Near h.position) ∧
      List.Forall₂ (Counterparts workspace) (s.handles workspace) (s.handles workspace.flip) := by
  refine ⟨fun h hh => wellFormed_of_mem_handles hh, ?_, s.forall₂_handles workspace⟩
  refine (s.pairwise_handles workspace).imp fun hne hb hnear => hne ⟨hb, ?_⟩
  exact ⟨hnear.1.symm, hnear.2.symm⟩

/-- Four quarters, one of them without width, another one overlapped and a sixth panel nowhere. -/
def degenerate : Layout Float :=
  (empty .horizontal).putAll [⟨⟨1⟩, ⟨0, 0, 0.5, 0.5⟩⟩, ⟨⟨2⟩, ⟨0, 0.5, 0.5, 0.5⟩⟩,
    ⟨⟨3⟩, ⟨0.5, 0, 0, 0.5⟩⟩, ⟨⟨4⟩, ⟨0.5, 0.5, 0.5, 0.5⟩⟩, ⟨⟨5⟩, ⟨0.5, 0, 0.5, 1⟩⟩,
    ⟨⟨6⟩, ⟨0 / 0, 0, 0.5, 1⟩⟩]

/-- Its four handles, the two on one vertical line connected to the panels of both. -/
theorem wellFormed_handles_degenerate :
    (degenerate.handles .horizontal).map (·.panels) =
        [[⟨1⟩, ⟨2⟩], [⟨1⟩, ⟨3⟩, ⟨2⟩, ⟨4⟩], [⟨2⟩, ⟨3⟩, ⟨1⟩], [⟨1⟩, ⟨3⟩, ⟨2⟩, ⟨4⟩]] ∧
      (degenerate.handles .vertical).map (·.panels) =
        [[⟨1⟩, ⟨2⟩, ⟨3⟩], [⟨1⟩, ⟨3⟩], [⟨1⟩, ⟨2⟩, ⟨3⟩], [⟨2⟩, ⟨4⟩]] ∧
      (∀ h ∈ degenerate.handles .horizontal, h.WellFormed degenerate) ∧
      List.Forall₂ (Counterparts .horizontal) (degenerate.handles .horizontal)
        (degenerate.handles .vertical) := by
  obtain ⟨hwell, -, hcounterparts⟩ := wellFormed_handles degenerate .horizontal
  exact ⟨by decide +kernel, by decide +kernel, hwell, hcounterparts⟩

end Layout

end Mosaic
