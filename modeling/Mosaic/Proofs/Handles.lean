import Mosaic.Proofs.Contacts

/-!
# Handles of a perfect layout

In a perfect layout on the mesh the handles can be said without the passes that collect them.  A
panel has a handle for each neighbour within its extent, at the middle of their contact and
connected to all such neighbours on the same side.  Of the two handles that two panels with equal
extents may have, the first is kept.

* `Layout.Abuts`: a contact within the extent of the first panel.
* `Layout.HandleAt`: a handle of one panel, by its position and the panels that it is connected to.
* `Perfect.handleAt_of_mem`, `Perfect.exists_mem_handlesAt`: the handles of a panel are of this
  kind, and there is one for each neighbour.
* `Perfect.exists_of_mem_handles`, `Perfect.exists_mem_handles`: the same for all handles of a layout.
-/

namespace Mosaic

open Coordinate

namespace Layout

variable {s : Layout ℚ} {p q k p' q' : Panel ℚ} {b b' : Orientation} {side side' : Side}
  {h : Handle ℚ} {id : PanelId} {workspace : Orientation}

/-! ### Neighbours within the extent of a panel -/

/-- The second panel lies beyond a side of the first, within its extent. -/
structure Abuts (s : Layout ℚ) (p q : Panel ℚ) (b : Orientation) (side : Side) : Prop
    extends s.Contact p q b side where
  includes : (p.rect.along b).Includes (q.rect.along b)

theorem Perfect.mem_neighbours_iff (hs : s.Perfect) (hm : s.OnMesh) (hp : p ∈ s.panels)
    {n : Neighbour ℚ} :
    n ∈ s.neighbours p Orientation.all ↔ s.Abuts p n.panel n.boundary n.side := by
  rw [mem_neighbours]
  constructor
  · rintro ⟨hn, htouches⟩
    obtain ⟨hborders, hin⟩ := (hs.touches_iff hm hp hn).1 htouches
    exact ⟨⟨hp, hn, hborders⟩, hin⟩
  · intro h
    exact ⟨h.right, (hs.touches_iff hm hp h.right).2 ⟨h.borders, h.includes⟩⟩

theorem Contact.between_eq (h : s.Contact p q b side) (hs : s.Perfect) (hm : s.OnMesh) :
    Handle.between p ⟨q, b, side⟩ = ⟨b, p.rect.contact q.rect b side, [p.id, q.id]⟩ := by
  unfold Handle.between
  rw [h.borders.midpointBetween_eq (hm p h.left) (hm q h.right) (hs.positive p h.left _)
    (hs.positive q h.right _)]

/-! ### The handles of one panel -/

/-- A handle at the middle of a contact of the panel `p` with a neighbour within its extent,
connected to `p` and to all such neighbours on the same side. -/
structure HandleAt (s : Layout ℚ) (h : Handle ℚ) (p q : Panel ℚ) (b : Orientation) (side : Side) :
    Prop extends s.Abuts p q b side where
  boundary : h.boundary = b
  position : h.position = p.rect.contact q.rect b side
  mem_panels : ∀ id, id ∈ h.panels ↔ id = p.id ∨ ∃ k, s.Abuts p k b side ∧ k.id = id

/-- Handles of a panel before they are connected lie on the same line if they are on the same
side. -/
theorem Perfect.collinear_between_iff (hs : s.Perfect) (hm : s.OnMesh) (h : s.Contact p q b side)
    (h' : s.Contact p q' b' side') :
    (Handle.between p ⟨q, b, side⟩).Collinear (.between p ⟨q', b', side'⟩) ↔
      b' = b ∧ side' = side := by
  rw [h.between_eq hs hm, h'.between_eq hs hm]
  unfold Handle.Collinear
  refine ⟨fun ⟨hb, hnear⟩ => ?_, fun ⟨hb, hside⟩ => ?_⟩
  · obtain rfl : b = b' := hb
    refine ⟨rfl, (Rect.edge_inj (hs.positive p h.left b.flip)).1 ?_⟩
    have halong := (hm p h.left).along b.flip
    have hline := ((halong.bound side).near_iff (halong.bound side')).1 (by
      simpa [Handle.line, Rect.contact, Rect.edge] using hnear)
    exact hline.symm
  · subst hb hside
    refine ⟨rfl, ?_⟩
    simpa [Handle.line, Rect.contact] using near_refl _

/-- Among the handles of a panel those on the same side at another position belong to the other
neighbours there. -/
theorem Perfect.handleAt_connectAll (hs : s.Perfect) (hm : s.OnMesh) (h : s.Abuts p q b side) :
    s.HandleAt ((Handle.between p ⟨q, b, side⟩).connectAll
      (((s.neighbours p Orientation.all).map (Handle.between p)).filter fun k =>
        ¬ k.position.Near (Handle.between p ⟨q, b, side⟩).position ∧
          (Handle.between p ⟨q, b, side⟩).Collinear k)) p q b side := by
  refine ⟨h, rfl, ?_, fun id => ?_⟩
  · exact congrArg Handle.position (h.between_eq hs hm)
  rw [mem_panels_connectAll]
  constructor
  · rintro (hid | ⟨k, hk, hid⟩)
    · rw [h.between_eq hs hm, List.mem_pair] at hid
      rcases hid with rfl | rfl
      · exact Or.inl rfl
      · exact Or.inr ⟨q, h, rfl⟩
    · simp only [List.mem_filter, List.mem_map, decide_eq_true_eq] at hk
      obtain ⟨⟨n, hn, rfl⟩, -, hcollinear⟩ := hk
      have hn := (hs.mem_neighbours_iff hm h.left).1 hn
      obtain ⟨hb, hside⟩ := (hs.collinear_between_iff hm h.toContact hn.toContact).1 hcollinear
      rw [hn.between_eq hs hm, List.mem_pair] at hid
      rcases hid with rfl | rfl
      · exact Or.inl rfl
      · exact Or.inr ⟨n.panel, hb ▸ hside ▸ hn, rfl⟩
  · rintro (rfl | ⟨k, hk, rfl⟩)
    · exact Or.inl List.mem_cons_self
    · by_cases hkq : k = q
      · subst hkq
        exact Or.inl (List.mem_cons_of_mem _ (List.mem_singleton_self _))
      · -- another neighbour on the side has its handle elsewhere on the line
        refine Or.inr ⟨Handle.between p ⟨k, b, side⟩, ?_, ?_⟩
        · simp only [List.mem_filter, List.mem_map, decide_eq_true_eq]
          refine ⟨⟨⟨k, b, side⟩, (hs.mem_neighbours_iff hm h.left).2 hk, rfl⟩, fun hnear => ?_, ?_⟩
          · rw [hk.between_eq hs hm, h.between_eq hs hm] at hnear
            exact hkq (hk.eq_of_near_of_side h.toContact hs hm hnear).2.symm
          · exact (hs.collinear_between_iff hm h.toContact hk.toContact).2 ⟨rfl, rfl⟩
        · exact List.mem_cons_of_mem _ (List.mem_singleton_self _)

theorem Perfect.handleAt_of_mem (hs : s.Perfect) (hm : s.OnMesh) (hp : p ∈ s.panels)
    (hh : h ∈ s.handlesAt p) : ∃ q b side, s.HandleAt h p q b side := by
  simp only [handlesAt, List.map_map, List.mem_map] at hh
  obtain ⟨n, hn, rfl⟩ := hh
  exact ⟨n.panel, n.boundary, n.side,
    hs.handleAt_connectAll hm ((hs.mem_neighbours_iff hm hp).1 hn)⟩

theorem Perfect.exists_mem_handlesAt (hs : s.Perfect) (hm : s.OnMesh) (h : s.Abuts p q b side) :
    ∃ k ∈ s.handlesAt p, s.HandleAt k p q b side := by
  refine ⟨_, ?_, hs.handleAt_connectAll hm h⟩
  exact List.mem_map_of_mem (List.mem_map_of_mem ((hs.mem_neighbours_iff hm h.left).2 h))

namespace HandleAt

theorem line_eq (h' : s.HandleAt h p q b side) : h.line = p.rect.edge b side := by
  rw [Handle.line, h'.boundary, h'.position, Rect.contact, Point.line_onLine]

theorem left_mem (h' : s.HandleAt h p q b side) : p.id ∈ h.panels :=
  (h'.mem_panels _).2 (Or.inl rfl)

theorem right_mem (h' : s.HandleAt h p q b side) : q.id ∈ h.panels :=
  (h'.mem_panels _).2 (Or.inr ⟨q, h'.toAbuts, rfl⟩)

end HandleAt

/-! ### All handles of a layout -/

theorem Perfect.handleAt_of_mem_collected (hs : s.Perfect) (hm : s.OnMesh)
    (hh : h ∈ s.collected) : ∃ p q side, s.HandleAt h p q h.boundary side := by
  obtain ⟨p, hp, hhp⟩ := exists_of_mem_collected hh
  obtain ⟨q, b, side, hat⟩ := hs.handleAt_of_mem hm hp hhp
  exact ⟨p, q, side, hat.boundary.symm ▸ hat⟩

theorem Perfect.exactLines_collected (hs : s.Perfect) (hm : s.OnMesh) :
    Handle.ExactLines s.collected := by
  intro h hh k hk
  obtain ⟨p, q, side, hp⟩ := hs.handleAt_of_mem_collected hm hh
  obtain ⟨p', q', side', hp'⟩ := hs.handleAt_of_mem_collected hm hk
  rw [hp.line_eq, hp'.line_eq]
  exact (((hm p hp.left).along _).bound side).near_iff (((hm p' hp'.left).along _).bound side')

/-- For each neighbour within the extent of a panel a handle of one of the two is kept. -/
theorem Perfect.exists_mem_collected (hs : s.Perfect) (hm : s.OnMesh) (h : s.Abuts p q b side) :
    ∃ k ∈ s.collected, s.HandleAt k p q b side ∨ s.HandleAt k q p b side.flip := by
  obtain ⟨j, hj, hjat⟩ := hs.exists_mem_handlesAt hm h
  obtain ⟨k, hk, hb, hnear⟩ :=
    Layout.exists_mem_collected h.left hj ⟨rfl, near_refl _, near_refl _⟩
  obtain ⟨p', q', side', hkat⟩ := hs.handleAt_of_mem_collected hm hk
  rw [hb, hjat.boundary] at hkat
  rw [hkat.position, hjat.position] at hnear
  refine ⟨k, hk, ?_⟩
  rcases hkat.eq_of_near h.toContact hs hm hnear with ⟨⟨rfl, rfl⟩, rfl⟩ | ⟨⟨rfl, rfl⟩, rfl⟩
  · exact Or.inl hkat
  · rw [Side.flip_flip]
    exact Or.inr hkat

/-- **Each handle is at the middle of a contact** of a panel with a neighbour within its extent. -/
theorem Perfect.exists_of_mem_handles (hs : s.Perfect) (hm : s.OnMesh)
    (hh : h ∈ s.handles workspace) :
    ∃ p q side, s.Abuts p q h.boundary side ∧
      h.position = p.rect.contact q.rect h.boundary side := by
  obtain ⟨k, hk, rfl⟩ := mem_handles.1 hh
  obtain ⟨p, q, side, hat⟩ := hs.handleAt_of_mem_collected hm hk
  rw [Handle.boundary_unified, Handle.position_unified]
  exact ⟨p, q, side, hat.toAbuts, hat.position⟩

/-- **Each contact of a panel with a neighbour within its extent has a handle** at its middle that
is connected to both. -/
theorem Perfect.exists_mem_handles (hs : s.Perfect) (hm : s.OnMesh) (h : s.Abuts p q b side)
    (workspace : Orientation) :
    ∃ k ∈ s.handles workspace, k.boundary = b ∧ k.position = p.rect.contact q.rect b side ∧
      p.id ∈ k.panels ∧ q.id ∈ k.panels := by
  obtain ⟨k, hk, hat⟩ := hs.exists_mem_collected hm h
  have hsubset := Handle.panels_subset_unified (b := workspace.flip) hk
  refine ⟨_, mem_handles.2 ⟨k, hk, rfl⟩, ?_⟩
  rw [Handle.boundary_unified, Handle.position_unified]
  rcases hat with hat | hat
  · exact ⟨hat.boundary, hat.position, hsubset hat.left_mem, hsubset hat.right_mem⟩
  · exact ⟨hat.boundary, hat.position.trans h.contact_symm, hsubset hat.right_mem,
      hsubset hat.left_mem⟩

end Layout

end Mosaic
