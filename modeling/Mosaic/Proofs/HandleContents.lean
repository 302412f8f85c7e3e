import Mathlib.Data.Finset.Basic
import Mosaic.Proofs.Handles

/-!
# What handles are connected to

In a perfect layout on the mesh a handle is known by the contact it sits on.  Two panels with equal
extents may both claim it, and the panels that it is connected to are the same for both, so it does
not matter which of the two was found first.

* `Layout.Joined`: the panels connected to the handles on one side of a panel.
* `Abuts.joined_symm`: they are the same for both panels that may claim a handle.
* `Layout.Connected`: the panels connected to a handle after lines have been unified.
* `Perfect.connected_of_mem_handles`, `Perfect.exists_mem_handles_connected`: the handles of a layout
  with all that they are connected to.
-/

namespace Mosaic

open Coordinate

namespace Layout

variable {s : Layout ℚ} {p q k : Panel ℚ} {b : Orientation} {side : Side} {h : Handle ℚ}
  {id : PanelId} {workspace : Orientation}

/-! ### The handles on one side of a panel -/

/-- The panel itself and its neighbours on a side, within its extent. -/
def Joined (s : Layout ℚ) (p : Panel ℚ) (b : Orientation) (side : Side) (id : PanelId) : Prop :=
  id = p.id ∨ ∃ k, s.Abuts p k b side ∧ k.id = id

/-- A panel that covers the side of another one is its only neighbour there. -/
theorem Abuts.joined_iff (h : s.Abuts p q b side) (hs : s.Perfect)
    (hin : (q.rect.along b).Includes (p.rect.along b)) :
    s.Joined p b side id ↔ id = p.id ∨ id = q.id := by
  refine or_congr_right ⟨?_, ?_⟩
  · rintro ⟨k, hk, rfl⟩
    have hmeets := (hin.trans hk.includes).meets (hs.positive k hk.right b)
    rw [hs.eq_of_borders h.right hk.right h.borders hk.borders hmeets]
  · rintro rfl
    exact ⟨q, h, rfl⟩

/-- **Both panels that may claim a handle are joined to the same panels.** -/
theorem Abuts.joined_symm (h : s.Abuts p q b side) (h' : s.Abuts q p b side.flip)
    (hs : s.Perfect) : s.Joined q b side.flip id ↔ s.Joined p b side id := by
  rw [h.joined_iff hs h'.includes, h'.joined_iff hs h.includes, or_comm]

/-- For each neighbour within the extent of a panel one handle is kept. -/
theorem Perfect.exists_mem_collected_joined (hs : s.Perfect) (hm : s.OnMesh)
    (h : s.Abuts p q b side) :
    ∃ k ∈ s.collected, k.boundary = b ∧ k.position = p.rect.contact q.rect b side ∧
      ∀ id, id ∈ k.panels ↔ s.Joined p b side id := by
  obtain ⟨k, hk, hat | hat⟩ := hs.exists_mem_collected hm h
  · exact ⟨k, hk, hat.boundary, hat.position, hat.mem_panels⟩
  · refine ⟨k, hk, hat.boundary, hat.position.trans h.contact_symm, fun id => ?_⟩
    exact (hat.mem_panels id).trans (h.joined_symm hat.toAbuts hs)

/-! ### Unified lines -/

/-- The panels connected to a handle on a side of a panel: those joined to it there, and on a line
across the direction of the workspace those joined to any panel with a neighbour on the line. -/
def Connected (s : Layout ℚ) (workspace : Orientation) (p : Panel ℚ) (b : Orientation)
    (side : Side) (id : PanelId) : Prop :=
  if b = workspace.flip then
    ∃ p' q' side', s.Abuts p' q' b side' ∧ p'.rect.edge b side' = p.rect.edge b side ∧
      s.Joined p' b side' id
  else s.Joined p b side id

theorem Perfect.mem_panels_unified_iff (hs : s.Perfect) (hm : s.OnMesh) (hh : h ∈ s.collected)
    (hb : h.boundary = b) (hline : h.line = p.rect.edge b side)
    (hpanels : ∀ id, id ∈ h.panels ↔ s.Joined p b side id) :
    id ∈ (Handle.unified workspace.flip s.collected h).panels ↔
      s.Connected workspace p b side id := by
  unfold Connected
  split
  next hunify =>
    subst hunify
    rw [Handle.mem_panels_unified (hs.exactLines_collected hm) hh hb, hline]
    constructor
    · rintro ⟨k, hk, ⟨hkb, hkline⟩, hid⟩
      obtain ⟨p', q', side', hat⟩ := hs.handleAt_of_mem_collected hm hk
      rw [hkb] at hat
      exact ⟨p', q', side', hat.toAbuts, hat.line_eq.symm.trans hkline, (hat.mem_panels id).1 hid⟩
    · rintro ⟨p', q', side', habuts, hedge, hid⟩
      obtain ⟨k, hk, hkb, hposition, hkpanels⟩ := hs.exists_mem_collected_joined hm habuts
      refine ⟨k, hk, ⟨hkb, ?_⟩, (hkpanels id).2 hid⟩
      rw [← hedge, Handle.line, hkb, hposition, Rect.contact, Point.line_onLine]
  next hkeep =>
    rw [Handle.unified_of_ne (hb ▸ hkeep)]
    exact hpanels id

/-- **Each handle sits on a contact and is connected to the panels that belong to it.** -/
theorem Perfect.connected_of_mem_handles (hs : s.Perfect) (hm : s.OnMesh)
    (hh : h ∈ s.handles workspace) :
    ∃ p q side, s.Abuts p q h.boundary side ∧
      h.position = p.rect.contact q.rect h.boundary side ∧
      ∀ id, id ∈ h.panels ↔ s.Connected workspace p h.boundary side id := by
  obtain ⟨k, hk, rfl⟩ := mem_handles.1 hh
  obtain ⟨p, q, side, hat⟩ := hs.handleAt_of_mem_collected hm hk
  rw [Handle.boundary_unified, Handle.position_unified]
  exact ⟨p, q, side, hat.toAbuts, hat.position, fun id =>
    hs.mem_panels_unified_iff hm hk rfl hat.line_eq hat.mem_panels⟩

/-- **Each contact of a panel with a neighbour within its extent has such a handle.** -/
theorem Perfect.exists_mem_handles_connected (hs : s.Perfect) (hm : s.OnMesh)
    (h : s.Abuts p q b side) (workspace : Orientation) :
    ∃ k ∈ s.handles workspace, k.boundary = b ∧ k.position = p.rect.contact q.rect b side ∧
      ∀ id, id ∈ k.panels ↔ s.Connected workspace p b side id := by
  obtain ⟨k, hk, hb, hposition, hpanels⟩ := hs.exists_mem_collected_joined hm h
  have hline : k.line = p.rect.edge b side := by
    rw [Handle.line, hb, hposition, Rect.contact, Point.line_onLine]
  refine ⟨_, mem_handles.2 ⟨k, hk, rfl⟩, ?_⟩
  rw [Handle.boundary_unified, Handle.position_unified]
  exact ⟨hb, hposition, fun id => hs.mem_panels_unified_iff hm hk hb hline hpanels⟩

/-! ### One handle for each contact -/

/-- Handles differ in their boundary or their position. -/
theorem pairwise_handles_ne (s : Layout ℚ) (workspace : Orientation) :
    (s.handles workspace).Pairwise fun h k => (h.boundary, h.position) ≠ (k.boundary, k.position) := by
  refine (s.pairwise_handles workspace).imp fun hne heq => hne ?_
  obtain ⟨hb, hposition⟩ := Prod.mk.inj heq
  exact ⟨hb, hposition ▸ ⟨near_refl _, near_refl _⟩⟩

end Layout

/-- A handle with the set of the panels that it is connected to. -/
def Handle.contents (h : Handle ℚ) : Orientation × Point ℚ × Finset PanelId :=
  (h.boundary, h.position, h.panels.toFinset)

end Mosaic
