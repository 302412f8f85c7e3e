import Mosaic.Proofs.Handles
import Mosaic.Proofs.SplitOnly

/-!
# What a handle moves

Moving a handle shifts its line for the panels that it is connected to.  This leaves no gap and no
overlap if the connected panels are closed: whoever shares a stretch of a connected panel's edge on
the line is connected as well.

A handle gets there in two steps.  The panel with the larger extent brings all its neighbours on a
side, and if panels in contact always have nested extents, no panel sticks out past the ends of that
side.  Unifying a line joins closed sets.

* `Layout.Nested`: of two panels in contact, one lies within the extent of the other.
* `HandleAt.closed`, `Nested.closed`: handles of one panel, and all handles, are closed.
* `SplitOnly.nested`: layouts made by splits alone are nested, since their spans are aligned.
* `SplitOnly.closed`: their handles move every panel that has to move.
-/

namespace Mosaic

open Coordinate

/-- The rectangle has an edge on the line of the given orientation. -/
def Rect.HasEdge (r : Rect ℚ) (b : Orientation) (line : ℚ) : Prop :=
  ∃ side, r.edge b side = line

namespace Layout

variable {s : Layout ℚ} {p q x y : Panel ℚ} {b : Orientation} {side : Side} {l : ℚ}
  {h k : Handle ℚ} {id : PanelId} {workspace : Orientation}

/-! ### Nested layouts -/

/-- Of two panels in contact, one lies within the extent of the other. -/
def Nested (s : Layout ℚ) : Prop :=
  ∀ p q b side, s.Contact p q b side →
    (p.rect.along b).Includes (q.rect.along b) ∨ (q.rect.along b).Includes (p.rect.along b)

/-- **Layouts made by splits alone are nested.** -/
theorem SplitOnly.nested (h : s.SplitOnly) : s.Nested := by
  intro p q b side hc
  exact (h.aligned p hc.left b).nested (h.aligned q hc.right b) hc.borders.2

/-! ### Handles are closed -/

/-- Different panels that end on a line and share a stretch of it are in contact there. -/
theorem Perfect.contact_of_hasEdge (hs : s.Perfect) (hp : p ∈ s.panels) (hq : q ∈ s.panels)
    (hne : p ≠ q) (hpl : p.rect.edge b side = l) (hql : q.rect.HasEdge b l)
    (hmeets : (p.rect.along b).Meets (q.rect.along b)) : s.Contact p q b side := by
  obtain ⟨side', hside'⟩ := hql
  rcases Side.eq_or_eq_flip side side' with rfl | rfl
  · exact absurd (hs.eq_of_edge_eq hp hq (hpl.trans hside'.symm) hmeets) hne
  · exact ⟨hp, hq, hside'.trans hpl.symm, hmeets⟩

namespace HandleAt

theorem exists_hasEdge (h' : s.HandleAt h p q b side) (hid : id ∈ h.panels) :
    ∃ x ∈ s.panels, x.id = id ∧ x.rect.HasEdge b h.line := by
  rw [h'.line_eq]
  rcases (h'.mem_panels id).1 hid with rfl | ⟨x, hx, rfl⟩
  · exact ⟨p, h'.left, rfl, side, rfl⟩
  · exact ⟨x, hx.right, rfl, side.flip, hx.borders.1⟩

/-- **In a nested layout the handle of a panel is closed.** -/
theorem closed (h' : s.HandleAt h p q b side) (hs : s.Perfect) (hn : s.Nested)
    (hx : x ∈ s.panels) (hy : y ∈ s.panels) (hxh : x.id ∈ h.panels)
    (hxl : x.rect.HasEdge b h.line) (hyl : y.rect.HasEdge b h.line)
    (hmeets : (x.rect.along b).Meets (y.rect.along b)) : y.id ∈ h.panels := by
  by_cases hxy : x = y
  · exact hxy ▸ hxh
  obtain ⟨side', hxl⟩ := hxl
  have hcontact := hs.contact_of_hasEdge hx hy hxy hxl hyl hmeets
  rw [h'.line_eq] at hxl
  rcases (h'.mem_panels x.id).1 hxh with hid | ⟨k, hk, hid⟩
  · -- beyond the side of the panel itself
    obtain rfl := eq_of_id_eq hx h'.left hid
    obtain rfl := (Rect.edge_inj (hs.positive x hx b.flip)).1 hxl
    rcases hn x y b side' hcontact with hin | hin
    · exact (h'.mem_panels y.id).2 (Or.inr ⟨y, ⟨hcontact, hin⟩, rfl⟩)
    · -- a panel that covers the side is the only one there
      have hyq := h'.borders.2.of_includes hin (Span.Includes.refl _)
      rw [hs.eq_of_borders hy h'.right hcontact.borders h'.borders hyq]
      exact h'.right_mem
  · -- across the line from a neighbour lies the panel itself
    obtain rfl := eq_of_id_eq hk.right hx hid
    obtain rfl := (Rect.edge_inj (hs.positive k hx b.flip)).1 (hxl.trans hk.borders.1.symm)
    have hedge : p.rect.edge b side = y.rect.edge b side := by
      rw [← hk.borders.1, ← hcontact.borders.1, Side.flip_flip]
    have hpy := hmeets.of_includes hk.includes (Span.Includes.refl _)
    rw [← hs.eq_of_edge_eq h'.left hy hedge hpy]
    exact h'.left_mem

end HandleAt

/-- **A handle is connected to panels with an edge on its line.** -/
theorem Perfect.exists_hasEdge (hs : s.Perfect) (hm : s.OnMesh) (hh : h ∈ s.handles workspace)
    (hid : id ∈ h.panels) : ∃ x ∈ s.panels, x.id = id ∧ x.rect.HasEdge h.boundary h.line := by
  obtain ⟨j, hj, rfl⟩ := mem_handles.1 hh
  rw [Handle.boundary_unified, Handle.line_unified]
  obtain ⟨k, hk, ⟨hb, hl⟩, hidk, -⟩ :=
    Handle.exists_of_mem_panels_unified (hs.exactLines_collected hm) hj hid
  obtain ⟨p, q, side, hat⟩ := hs.handleAt_of_mem_collected hm hk
  rw [← hb, ← hl]
  exact hat.exists_hasEdge hidk

/-- **In a nested layout all handles are closed.** -/
theorem Nested.closed (hn : s.Nested) (hs : s.Perfect) (hm : s.OnMesh)
    (hh : h ∈ s.handles workspace) (hx : x ∈ s.panels) (hy : y ∈ s.panels)
    (hxh : x.id ∈ h.panels) (hxl : x.rect.HasEdge h.boundary h.line)
    (hyl : y.rect.HasEdge h.boundary h.line)
    (hmeets : (x.rect.along h.boundary).Meets (y.rect.along h.boundary)) : y.id ∈ h.panels := by
  obtain ⟨j, hj, rfl⟩ := mem_handles.1 hh
  rw [Handle.boundary_unified] at hxl hyl hmeets
  rw [Handle.line_unified] at hxl hyl
  obtain ⟨k, hk, ⟨hb, hl⟩, hxk, hsubset⟩ :=
    Handle.exists_of_mem_panels_unified (hs.exactLines_collected hm) hj hxh
  obtain ⟨p, q, side, hat⟩ := hs.handleAt_of_mem_collected hm hk
  rw [← hb] at hxl hyl hmeets
  rw [← hl] at hxl hyl
  exact hsubset (hat.closed hs hn hx hy hxk hxl hyl hmeets)

/-- **Moving a handle of a layout made by splits alone moves every panel that has to move.**  The
connected panels have an edge on the line of the handle, and every panel that shares a stretch of
such an edge is connected too. -/
theorem SplitOnly.closed (hs : s.SplitOnly) (hmin : s.AtLeastMesh)
    (hh : h ∈ s.handles workspace) :
    (∀ id ∈ h.panels, ∃ p ∈ s.panels, p.id = id ∧ p.rect.HasEdge h.boundary h.line) ∧
      ∀ p ∈ s.panels, p.id ∈ h.panels → p.rect.HasEdge h.boundary h.line →
        ∀ q ∈ s.panels, q.rect.HasEdge h.boundary h.line →
          (p.rect.along h.boundary).Meets (q.rect.along h.boundary) → q.id ∈ h.panels := by
  have hm := hs.onMesh hmin
  constructor
  · exact fun id hid => hs.perfect.exists_hasEdge hm hh hid
  · intro p hp hph hpl q hq hql hmeets
    exact hs.nested.closed hs.perfect hm hh hp hq hph hpl hql hmeets

end Layout

end Mosaic
