import Mathlib.Data.Set.Function
import Mathlib.Data.Sym.Sym2
import Mosaic.Proofs.HandleContents
import Mosaic.Proofs.Pinwheel

/-!
# One handle for each pair

In a perfect layout on the mesh the handles are in one-to-one correspondence with the unordered
pairs of panels in contact of which one lies within the extent of the other.  If each of the two
lies within the extent of the other, the pair can be read in both orders, and both readings say the
same of the handle.

* `Layout.nestedPairs`: the pairs.
* `Layout.BelongsTo`: the handle that a pair has, read in one order.
* `Abuts.belongsTo_of_eq`: the order does not matter if both are possible.
* `Layout.bijOn_handles`: the correspondence.
-/

namespace Mosaic

open Coordinate

/-- What a span has in common with one that it includes is the whole of that one. -/
theorem Span.Includes.common_eq {s t : Span ℚ} (h : s.Includes t) : s.common t = t := by
  refine eq_of_start_stop (max_eq_right h.1) ?_
  rw [stop_common, min_eq_right h.2]

namespace Layout

variable {s : Layout ℚ} {p q p' q' : Panel ℚ} {b b' : Orientation} {side side' : Side}
  {h k : Handle ℚ} {id : PanelId} {workspace : Orientation}

/-! ### Pairs of panels -/

/-- The unordered pairs of panels in contact of which one lies within the extent of the other. -/
def nestedPairs (s : Layout ℚ) : Set (Sym2 (Panel ℚ)) :=
  {e | ∃ p q b side, s.Abuts p q b side ∧ e = s(p, q)}

/-- The handle lies in the middle of the edge that `q` has on a side of `p`, and it is connected to
the panels that move with this side. -/
structure BelongsTo (s : Layout ℚ) (workspace : Orientation) (h : Handle ℚ) (p q : Panel ℚ)
    (b : Orientation) (side : Side) : Prop where
  boundary : h.boundary = b
  position : h.position = .onLine b (p.rect.edge b side) (q.rect.along b).middle
  panels : ∀ id, id ∈ h.panels ↔ s.Connected workspace p b side id

theorem BelongsTo.line_eq (h' : s.BelongsTo workspace h p q b side) :
    h.line = p.rect.edge b side := by
  rw [Handle.line, h'.boundary, h'.position, Point.line_onLine]

namespace Abuts

/-- Two panels are in contact along one side only. -/
theorem side_unique (h : s.Abuts p q b side) (h' : s.Abuts p q b' side') (hs : s.Perfect) :
    b' = b ∧ side' = side :=
  h.borders.side_unique h'.borders (hs.positive p h.left) (hs.positive q h.right)

/-- The middle of the contact is the middle of the edge of the panel within the other's extent. -/
theorem contact_eq (h : s.Abuts p q b side) :
    p.rect.contact q.rect b side = .onLine b (p.rect.edge b side) (q.rect.along b).middle := by
  unfold Rect.contact
  rw [h.includes.common_eq]

/-- Both panels that may claim a handle are connected to the same panels. -/
theorem connected_symm (h : s.Abuts p q b side) (h' : s.Abuts q p b side.flip) (hs : s.Perfect) :
    s.Connected workspace q b side.flip id ↔ s.Connected workspace p b side id := by
  unfold Connected
  split
  · rw [h.borders.1]
  · exact h.joined_symm h' hs

theorem belongsTo_symm (h : s.Abuts p q b side) (h' : s.Abuts q p b side.flip) (hs : s.Perfect)
    (hk : s.BelongsTo workspace k p q b side) : s.BelongsTo workspace k q p b side.flip where
  boundary := hk.boundary
  position := by rw [hk.position, ← h.contact_eq, ← h.contact_symm, h'.contact_eq]
  panels := fun id => (hk.panels id).trans (h.connected_symm h' hs).symm

/-- If a handle belongs to a pair in one order, it does in every order that is possible. -/
theorem belongsTo_of_eq (h : s.Abuts p q b side) (h' : s.Abuts p' q' b' side') (hs : s.Perfect)
    (heq : s(p, q) = s(p', q')) (hk : s.BelongsTo workspace k p q b side) :
    s.BelongsTo workspace k p' q' b' side' := by
  rcases Sym2.eq_iff.1 heq with ⟨rfl, rfl⟩ | ⟨rfl, rfl⟩
  · obtain ⟨rfl, rfl⟩ := h.side_unique h' hs
    exact hk
  · obtain ⟨rfl, rfl⟩ := h.borders.symm.side_unique h'.borders (hs.positive _ h.right)
      (hs.positive _ h.left)
    exact h.belongsTo_symm h' hs hk

end Abuts

/-! ### The correspondence -/

theorem Perfect.exists_belongsTo (hs : s.Perfect) (hm : s.OnMesh)
    (hh : h ∈ s.handles workspace) :
    ∃ e ∈ s.nestedPairs, ∀ p q b side, e = s(p, q) → s.Abuts p q b side →
      s.BelongsTo workspace h p q b side := by
  obtain ⟨p, q, side, habuts, hposition, hpanels⟩ := hs.connected_of_mem_handles hm hh
  refine ⟨s(p, q), ⟨p, q, _, side, habuts, rfl⟩, fun p' q' b' side' heq habuts' => ?_⟩
  exact habuts.belongsTo_of_eq habuts' hs heq ⟨rfl, hposition.trans habuts.contact_eq, hpanels⟩

/-- Handles at the same place are the same. -/
theorem eq_of_position_eq (hh : h ∈ s.handles workspace) (hk : k ∈ s.handles workspace)
    (hb : h.boundary = k.boundary) (hposition : h.position = k.position) : h = k := by
  have hnodup : ((s.handles workspace).map fun h => (h.boundary, h.position)).Nodup :=
    List.pairwise_map.2 (s.pairwise_handles_ne workspace)
  exact List.inj_on_of_nodup_map hnodup hh hk (Prod.ext hb hposition)

/-- Contacts at the middle of which one handle lies are those of one pair. -/
theorem Perfect.pair_eq_of_belongsTo (hs : s.Perfect) (hm : s.OnMesh) (h : s.Abuts p q b side)
    (h' : s.Abuts p' q' b' side') (hk : s.BelongsTo workspace k p q b side)
    (hk' : s.BelongsTo workspace k p' q' b' side') : s(p, q) = s(p', q') := by
  obtain rfl : b = b' := hk.boundary.symm.trans hk'.boundary
  have hnear : (p.rect.contact q.rect b side).Near (p'.rect.contact q'.rect b side') := by
    rw [h.contact_eq, h'.contact_eq, ← hk.position, ← hk'.position]
    exact ⟨near_refl _, near_refl _⟩
  rcases h.eq_of_near h'.toContact hs hm hnear with ⟨⟨rfl, rfl⟩, -⟩ | ⟨⟨rfl, rfl⟩, -⟩
  · rfl
  · exact Sym2.eq_swap

/-- Each handle belongs to one pair, and each pair has one handle. -/
theorem Perfect.exists_pairing (hs : s.Perfect) (hm : s.OnMesh) (workspace : Orientation) :
    ∃ pair : Handle ℚ → Sym2 (Panel ℚ),
      Set.BijOn pair {k | k ∈ s.handles workspace} s.nestedPairs ∧
        ∀ k ∈ s.handles workspace, ∀ p q b side, pair k = s(p, q) → s.Abuts p q b side →
          s.BelongsTo workspace k p q b side := by
  have : Nonempty (Sym2 (Panel ℚ)) := ⟨s(⟨.pending, .unit⟩, ⟨.pending, .unit⟩)⟩
  choose! pair hpair hbelongs using fun k (hk : k ∈ s.handles workspace) =>
    hs.exists_belongsTo hm hk
  refine ⟨pair, ⟨hpair, fun j hj k hk heq => ?_, ?_⟩, hbelongs⟩
  · obtain ⟨p, q, b, side, habuts, hpq⟩ := hpair j hj
    have hjpq := hbelongs j hj p q b side hpq habuts
    have hkpq := hbelongs k hk p q b side (heq.symm.trans hpq) habuts
    exact eq_of_position_eq hj hk (hjpq.boundary.trans hkpq.boundary.symm)
      (hjpq.position.trans hkpq.position.symm)
  · rintro e ⟨p, q, b, side, habuts, rfl⟩
    obtain ⟨k, hk, hb, hposition, hpanels⟩ := hs.exists_mem_handles_connected hm habuts workspace
    obtain ⟨p', q', b', side', habuts', hpq'⟩ := hpair k hk
    refine ⟨k, hk, hpq'.trans ?_⟩
    exact hs.pair_eq_of_belongsTo hm habuts' habuts (hbelongs k hk p' q' b' side' hpq' habuts')
      ⟨hb, hposition.trans habuts.contact_eq, hpanels⟩

/-- **There is one handle for each pair of panels in contact of which one lies within the extent of
the other.**  It lies in the middle of the edge of that one.  On a boundary along the workspace it
is connected to the other one and all its neighbours on this side within its extent, and on a
boundary across the workspace to the panels that belong in this way to any handle on the same line.
-/
theorem bijOn_handles (h : s.Tiles) (hm : s.OnMesh) (workspace : Orientation) :
    (s.handles workspace).Nodup ∧
      ∃ pair : Handle ℚ → Sym2 (Panel ℚ),
        Set.BijOn pair {k | k ∈ s.handles workspace} s.nestedPairs ∧
          ∀ k ∈ s.handles workspace, ∀ p q b side, pair k = s(p, q) → s.Abuts p q b side →
            k.boundary = b ∧ k.position = .onLine b (p.rect.edge b side) (q.rect.along b).middle ∧
              (b = workspace → ∀ id, id ∈ k.panels ↔ s.Joined p b side id) ∧
                (b = workspace.flip → ∀ id, id ∈ k.panels ↔
                  ∃ j ∈ s.handles workspace, (j.boundary = b ∧ j.line = k.line) ∧
                    ∃ p' q' side', (pair j = s(p', q') ∧ s.Abuts p' q' b side') ∧
                      s.Joined p' b side' id) := by
  have hs := tiles_iff_perfect.1 h
  obtain ⟨pair, hbij, hbelongs⟩ := hs.exists_pairing hm workspace
  refine ⟨(s.pairwise_handles_ne workspace).imp fun hne heq => hne (by rw [heq]), pair, hbij, ?_⟩
  intro k hk p q b side hpair habuts
  have hkpq := hbelongs k hk p q b side hpair habuts
  refine ⟨hkpq.boundary, hkpq.position, fun hb id => ?_, fun hb id => ?_⟩
  · have hkeep : b ≠ workspace.flip := hb ▸ (Orientation.flip_ne b).symm
    rw [hkpq.panels, Connected, if_neg hkeep]
  · rw [hkpq.panels, Connected, if_pos hb]
    constructor
    · rintro ⟨p', q', side', habuts', hedge, hjoined⟩
      obtain ⟨j, hj, hpair'⟩ := hbij.surjOn ⟨p', q', b, side', habuts', rfl⟩
      have hjpq := hbelongs j hj p' q' b side' hpair' habuts'
      exact ⟨j, hj, ⟨hjpq.boundary, hjpq.line_eq.trans (hedge.trans hkpq.line_eq.symm)⟩,
        p', q', side', ⟨hpair', habuts'⟩, hjoined⟩
    · rintro ⟨j, hj, ⟨-, hline⟩, p', q', side', ⟨hpair', habuts'⟩, hjoined⟩
      have hjpq := hbelongs j hj p' q' b side' hpair' habuts'
      exact ⟨p', q', side', habuts', hjpq.line_eq.symm.trans (hline.trans hkpq.line_eq), hjoined⟩

/-- The handle in the middle of the edge over the centre of a pinwheel.  In a vertical workspace it
moves the panel beside the centre as well, which has a handle on the same line. -/
theorem bijOn_handles_pinwheel :
    (pinwheel.Tiles ∧ pinwheel.OnMesh) ∧ (pinwheel.handles .vertical).Nodup ∧
      ∃ k ∈ pinwheel.handles .vertical,
        k.boundary = .horizontal ∧ k.position = ⟨1 / 2, 1 / 4⟩ ∧ ⟨4⟩ ∈ k.panels := by
  have htiles : pinwheel.Tiles := by decide +kernel
  have hmesh : pinwheel.OnMesh := by decide +kernel
  have hcentre : pinwheel.Abuts ⟨⟨1⟩, ⟨0, 0, 3 / 4, 1 / 4⟩⟩ ⟨⟨5⟩, ⟨1 / 4, 1 / 4, 1 / 2, 1 / 2⟩⟩
      .horizontal .after := ⟨by decide +kernel, by decide +kernel⟩
  have hbeside : pinwheel.Abuts ⟨⟨1⟩, ⟨0, 0, 3 / 4, 1 / 4⟩⟩ ⟨⟨4⟩, ⟨0, 1 / 4, 1 / 4, 3 / 4⟩⟩
      .horizontal .after := ⟨by decide +kernel, by decide +kernel⟩
  obtain ⟨hnodup, pair, hbij, hcontents⟩ := bijOn_handles htiles hmesh .vertical
  obtain ⟨k, hk, hpair⟩ := hbij.surjOn ⟨_, _, _, _, hcentre, rfl⟩
  obtain ⟨j, hj, hpair'⟩ := hbij.surjOn ⟨_, _, _, _, hbeside, rfl⟩
  obtain ⟨hb, hposition, -, hacross⟩ := hcontents k hk _ _ _ _ hpair hcentre
  obtain ⟨hb', hposition', -, -⟩ := hcontents j hj _ _ _ _ hpair' hbeside
  have hline : j.line = k.line := by
    rw [Handle.line, Handle.line, hb, hb', hposition, hposition', Point.line_onLine,
      Point.line_onLine]
  refine ⟨⟨htiles, hmesh⟩, hnodup, k, hk, hb, hposition.trans (by decide +kernel), ?_⟩
  exact (hacross rfl _).2 ⟨j, hj, ⟨hb', hline⟩, _, _, _, ⟨hpair', hbeside⟩,
    Or.inr ⟨_, hbeside, rfl⟩⟩

end Layout

end Mosaic
