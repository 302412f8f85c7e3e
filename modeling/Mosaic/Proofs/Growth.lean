import Mosaic.Coordinate.Float
import Mosaic.Proofs.Edits

/-!
# What a removal changes

Panels that overlap, gaps and numbers that are not comparable to themselves do not keep a removal
from being orderly.  Among three panels or more it grows all panels that touch one side of the
removed one and leaves the others as they are, and it is refused only if no side is covered.

* `Layout.touching`: the panels on one side, as the query for neighbours reports them.
* `Layout.SideCovered`: there are some, and their extents add up to the edge.
* `Layout.GrownAlong`: all that is different after a removal.
* `Layout.remove_grows_side`: what a removal does to any layout.
-/

namespace Mosaic

open Coordinate

variable {α : Type} [Coordinate α]

/-! ### Grown rectangles -/

/-- The first rectangle is the second one, grown over the removed one across a boundary: it begins
where the first of them does and has the sum of their extents. -/
structure Rect.Grown (grown r removed : Rect α) (b : Orientation) : Prop where
  along : grown.along b = r.along b
  start : (grown.along b.flip).start = least (r.along b.flip).start (removed.along b.flip).start
  extent : (grown.along b.flip).extent = (r.along b.flip).extent + (removed.along b.flip).extent

theorem Rect.grown_growOver (r removed : Rect α) (b : Orientation) :
    (r.growOver removed b).Grown r removed b := by
  have hacross : (r.growOver removed b).along b.flip =
      ⟨least (r.along b.flip).start (removed.along b.flip).start,
        (r.along b.flip).extent + (removed.along b.flip).extent⟩ := along_flip_ofSpans _ _ _
  exact ⟨along_growOver _ _ _, by rw [hacross], by rw [hacross]⟩

/-- A twin has nearly the extent of the removed rectangle across the boundary. -/
theorem Flank.IsTwin.exists_near {f : Flank α} {r : Rect α} (h : f.IsTwin r) :
    ∃ q, f.panels = [q] ∧
      Near (q.rect.along f.boundary.flip).extent (r.along f.boundary.flip).extent := by
  obtain ⟨q, hq⟩ := h.exists_panels_eq
  rw [isTwin_iff_of_panels_eq hq] at h
  exact ⟨q, hq, h.2.1.symm⟩

namespace Layout

variable {s t rest : Layout α} {p q : Panel α} {b : Orientation} {side : Side} {id : PanelId}
  {removed : Rect α}

/-! ### The panels on one side -/

/-- The panels that touch one side of `p`, as the query for neighbours reports them. -/
def touching (rest : Layout α) (p : Panel α) (b : Orientation) (side : Side) : List (Panel α) :=
  ((rest.neighbours p [b]).filter (·.side = side)).map (·.panel)

/-- Some panels touch the side, and their extents add up to that of the edge. -/
def SideCovered (rest : Layout α) (p : Panel α) (b : Orientation) (side : Side) : Prop :=
  rest.touching p b side ≠ [] ∧
    Near (sum ((rest.touching p b side).map fun q => (q.rect.along b).extent))
      (p.rect.along b).extent

instance (rest : Layout α) (p : Panel α) (b : Orientation) (side : Side) [DecidableEq α] :
    Decidable (rest.SideCovered p b side) :=
  inferInstanceAs (Decidable (_ ∧ _))

/-- They are the flank on this side. -/
theorem touching_eq_flank (rest : Layout α) (p : Panel α) (b : Orientation) (side : Side) :
    rest.touching p b side = (rest.flank p b side).panels := by
  rw [flank_panels]
  unfold touching neighbours
  rw [show Orientation.all.filter (· ∈ [b]) = [b] by cases b <;> rfl]
  induction rest.panels with
  | nil => rfl
  | cons q ps ih =>
    by_cases hid : q.id = p.id
    · simpa [hid] using ih
    · cases htouched : p.rect.sideTouched q.rect b with
      | none => simpa [hid, htouched] using ih
      | some side' => by_cases hside : side' = side <;> simpa [hid, htouched, hside] using ih

theorem sideCovered_iff_usable :
    rest.SideCovered p b side ↔ (rest.flank p b side).Usable p.rect := by
  unfold SideCovered
  rw [touching_eq_flank]
  rfl

/-! ### Handing over, label by label -/

theorem find?_handOver_of_mem (hq : q ∈ (rest.flank p b side).panels) :
    (rest.handOver removed (rest.flank p b side)).find? q.id =
      some (q.rect.growOver removed b) := by
  have hperm := perm_handOver rest removed (flank_panels rest p b side)
  rw [find?_eq_some_iff, hperm.mem_iff, List.mem_append, List.mem_map]
  exact Or.inl ⟨q, hq, rfl⟩

theorem find?_handOver_of_notMem (hid : id ∉ (rest.flank p b side).panels.map (·.id)) :
    (rest.handOver removed (rest.flank p b side)).find? id = rest.find? id := by
  have hperm := perm_handOver rest removed (flank_panels rest p b side)
  refine Option.ext fun r => ?_
  rw [find?_eq_some_iff, find?_eq_some_iff, hperm.mem_iff, List.mem_append, List.mem_map,
    List.mem_filter]
  constructor
  · rintro (⟨q, hq, heq⟩ | ⟨hmem, -⟩)
    · have hqid : q.id = id := (Panel.mk.inj heq).1
      exact absurd (List.mem_map.2 ⟨q, hq, hqid⟩) hid
    · exact hmem
  · intro hmem
    refine Or.inr ⟨hmem, ?_⟩
    by_contra hflank
    refine hid (List.mem_map.2 ⟨⟨id, r⟩, ?_, rfl⟩)
    rw [flank_panels, List.mem_filter]
    exact ⟨hmem, by simpa using hflank⟩

/-! ### Removals -/

/-- `t` is `s` without the panel `p`, where the panels on one side of it have grown and all others
are as before. -/
structure GrownAlong (s t : Layout α) (p : Panel α) (b : Orientation) (side : Side) : Prop where
  covered : (s.erase p.id).SideCovered p b side
  orientation : t.orientation = s.orientation
  removed : t.find? p.id = none
  grown : ∀ q ∈ (s.erase p.id).touching p b side,
    ∃ r, t.find? q.id = some r ∧ r.Grown q.rect p.rect b
  others : ∀ id, id ≠ p.id → id ∉ ((s.erase p.id).touching p b side).map (·.id) →
    t.find? id = s.find? id

theorem grownAlong_handOver (hu : ((s.erase p.id).flank p b side).Usable p.rect) :
    s.GrownAlong ((s.erase p.id).handOver p.rect ((s.erase p.id).flank p b side)) p b side where
  covered := sideCovered_iff_usable.2 hu
  orientation := orientation_putAll _ _
  removed := by
    rw [find?_handOver_of_notMem, find?_erase_self]
    intro hmem
    obtain ⟨q, hq, hid⟩ := List.mem_map.1 hmem
    exact (mem_flank.1 hq).2.1 hid
  grown := by
    intro q hq
    rw [touching_eq_flank] at hq
    exact ⟨_, find?_handOver_of_mem hq, Rect.grown_growOver _ _ _⟩
  others := by
    intro id hne hid
    rw [touching_eq_flank] at hid
    rw [find?_handOver_of_notMem hid, find?_erase, if_neg hne.symm]

/-- **A removal grows all panels on one side, and nothing else changes.**  Whatever the numbers of a
layout of three panels or more are, the panels that grow touch one side of the removed one and their
extents add up to its edge.  If the side is not across a preferred boundary, then no side across one
is covered, or it is a single panel that grows, with nearly the extent of the removed one.  A
removal is refused if and only if no side is covered. -/
theorem remove_grows_side (hp : p ∈ s.panels) (hsize : 3 ≤ s.size) :
    (∀ t, s.remove p.id = .ok t → ∃ b side, s.GrownAlong t p b side ∧
        (b = s.orientation.flip →
          (∀ side', ¬ (s.erase p.id).SideCovered p s.orientation side') ∨
            ∃ q, (s.erase p.id).touching p b side = [q] ∧
              Near (q.rect.along b.flip).extent (p.rect.along b.flip).extent)) ∧
      ∀ e, s.remove p.id = .error e ↔
        e = .noNeighbour p.id ∧ ∀ b side, ¬ (s.erase p.id).SideCovered p b side := by
  rw [remove_of_three_le hp hsize]
  simp only [sideCovered_iff_usable, touching_eq_flank]
  constructor
  · intro t ht
    split at ht
    · cases ht
    next f hf =>
      cases ht
      obtain ⟨b, side, rfl, hu, hpreferring⟩ := exists_of_heirs?_preferring hf
      refine ⟨b, side, grownAlong_handOver hu, fun hb => ?_⟩
      exact (hpreferring hb).imp_right fun htwin => htwin.exists_near
  · intro e
    rw [← heirs?_eq_none_iff]
    split
    next hnone => simp [hnone, eq_comm]
    next f hf => simp [hf]

/-- A column beside two panels, one of which has a width that is not comparable to itself, and a
panel over all of them. -/
def overlaid : Layout Float :=
  (empty .horizontal).putAll [⟨⟨1⟩, ⟨0, 0, 0.5, 1⟩⟩, ⟨⟨2⟩, ⟨0.5, 0, 0.5, 0.5⟩⟩,
    ⟨⟨3⟩, ⟨0.5, 0.5, 0 / 0, 0.5⟩⟩, ⟨⟨4⟩, ⟨0.25, 0.25, 0.5, 0.5⟩⟩]

/-- The column goes to both panels beside it. -/
theorem remove_grows_side_overlaid :
    (⟨⟨1⟩, ⟨0, 0, 0.5, 1⟩⟩ ∈ overlaid.panels ∧ 3 ≤ overlaid.size) ∧
      (∃ t, overlaid.remove ⟨1⟩ = .ok t ∧
        ∃ b side, overlaid.GrownAlong t ⟨⟨1⟩, ⟨0, 0, 0.5, 1⟩⟩ b side) ∧
      (overlaid.erase ⟨1⟩).SideCovered ⟨⟨1⟩, ⟨0, 0, 0.5, 1⟩⟩ .vertical .after := by
  have hmem : ⟨⟨1⟩, ⟨0, 0, 0.5, 1⟩⟩ ∈ overlaid.panels := by decide +kernel
  have hsize : 3 ≤ overlaid.size := by decide +kernel
  have hcovered : (overlaid.erase ⟨1⟩).SideCovered ⟨⟨1⟩, ⟨0, 0, 0.5, 1⟩⟩ .vertical .after := by
    decide +kernel
  obtain ⟨hgrows, hrefused⟩ := remove_grows_side hmem hsize
  cases ht : overlaid.remove ⟨1⟩ with
  | error e => exact absurd hcovered (((hrefused e).1 ht).2 .vertical .after)
  | ok t =>
    obtain ⟨b, side, hgrown, -⟩ := hgrows t ht
    exact ⟨⟨hmem, hsize⟩, ⟨t, rfl, b, side, hgrown⟩, hcovered⟩

end Layout

end Mosaic
