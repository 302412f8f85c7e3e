import Mosaic.Proofs.Drags

/-!
# Which contacts have handles

A neighbour is reported only if it lies within the extent of the panel that is asked.  So two panels
in contact have a handle if one of them lies within the extent of the other, and none if each sticks
out past the other.  Splits alone never lead there, but removals do.

* `Perfect.exists_handle_iff`: the condition for one contact.
* `Perfect.nested_iff`: all contacts have handles if and only if the layout is nested.
* `Layout.exists_handle_iff_of_run`: the condition, for every layout on a run.
* `Layout.staggered`: a layout on a run with a contact that has no handle.
-/

namespace Mosaic

open Coordinate Relation

namespace Layout

variable {s : Layout ℚ} {p q : Panel ℚ} {b : Orientation} {side : Side}

/-! ### The condition -/

/-- A handle at the middle of a contact that is connected to both panels. -/
def HandleBetween (s : Layout ℚ) (workspace : Orientation) (p q : Panel ℚ) (b : Orientation)
    (side : Side) (h : Handle ℚ) : Prop :=
  h ∈ s.handles workspace ∧ h.boundary = b ∧ h.position = p.rect.contact q.rect b side ∧
    p.id ∈ h.panels ∧ q.id ∈ h.panels

/-- If there is a handle at the middle of a contact, one panel lies within the extent of the
other. -/
theorem Perfect.includes_of_mem_handles (hs : s.Perfect) (hm : s.OnMesh)
    (hc : s.Contact p q b side) {workspace : Orientation} {h : Handle ℚ}
    (hh : h ∈ s.handles workspace) (hb : h.boundary = b)
    (hposition : h.position = p.rect.contact q.rect b side) :
    (p.rect.along b).Includes (q.rect.along b) ∨ (q.rect.along b).Includes (p.rect.along b) := by
  obtain ⟨x, y, side', habuts, hmiddle⟩ := hs.exists_of_mem_handles hm hh
  subst hb
  have hnear : (p.rect.contact q.rect h.boundary side).Near
      (x.rect.contact y.rect h.boundary side') := by
    rw [← hposition, ← hmiddle]
    exact ⟨near_refl _, near_refl _⟩
  rcases hc.eq_of_near habuts.toContact hs hm hnear with ⟨⟨rfl, rfl⟩, -⟩ | ⟨⟨rfl, rfl⟩, -⟩
  · exact Or.inl habuts.includes
  · exact Or.inr habuts.includes

/-- **A contact has a handle if and only if one panel lies within the extent of the other.** -/
theorem Perfect.exists_handle_iff (hs : s.Perfect) (hm : s.OnMesh) (hc : s.Contact p q b side)
    (workspace : Orientation) :
    (∃ h, s.HandleBetween workspace p q b side h) ↔
      (p.rect.along b).Includes (q.rect.along b) ∨ (q.rect.along b).Includes (p.rect.along b) := by
  constructor
  · rintro ⟨h, hh, hb, hposition, -⟩
    exact hs.includes_of_mem_handles hm hc hh hb hposition
  · rintro (hin | hin)
    · exact hs.exists_mem_handles hm ⟨hc, hin⟩ workspace
    · obtain ⟨h, hh, hb, hposition, hq, hp⟩ := hs.exists_mem_handles hm ⟨hc.symm, hin⟩ workspace
      exact ⟨h, hh, hb, hposition.trans hc.contact_symm, hp, hq⟩

/-- **All contacts have handles if and only if the layout is nested.** -/
theorem Perfect.nested_iff (hs : s.Perfect) (hm : s.OnMesh) (workspace : Orientation) :
    s.Nested ↔ ∀ p q b side, s.Contact p q b side → ∃ h, s.HandleBetween workspace p q b side h := by
  refine forall₄_congr fun p q b side => forall_congr' fun hc => ?_
  exact (hs.exists_handle_iff hm hc workspace).symm

/-- In a layout made by splits alone all contacts have handles. -/
theorem SplitOnly.exists_handle (h : s.SplitOnly) (hmin : s.AtLeastMesh) (hc : s.Contact p q b side)
    (workspace : Orientation) : ∃ h, s.HandleBetween workspace p q b side h :=
  (h.perfect.nested_iff (h.onMesh hmin) workspace).1 h.nested p q b side hc

/-! ### Runs -/

/-- **On every run a contact has a handle if and only if one panel lies within the extent of the
other.** -/
theorem exists_handle_iff_of_run (c : Config) (id : PanelId)
    (h : ReflTransGen EditOnMesh (c.initial id) s) (hc : s.Contact p q b side)
    (workspace : Orientation) :
    (∃ h, s.HandleBetween workspace p q b side h) ↔
      (p.rect.along b).Includes (q.rect.along b) ∨ (q.rect.along b).Includes (p.rect.along b) := by
  obtain ⟨hs, hm⟩ := emptyOrPerfect_of_run h
  exact (hs.perfect hc.left).exists_handle_iff hm hc workspace

/-- A layout of two halves below and three panels above.  The wide one among these has taken over
the area of a column, and so it ends over the middle of a half. -/
def staggered : Layout ℚ :=
  (empty .horizontal).putAll [⟨⟨1⟩, ⟨0, 0, 1 / 4, 1 / 4⟩⟩, ⟨⟨2⟩, ⟨1 / 4, 0, 3 / 4, 1 / 2⟩⟩,
    ⟨⟨3⟩, ⟨0, 1 / 2, 1 / 2, 1 / 2⟩⟩, ⟨⟨5⟩, ⟨0, 1 / 4, 1 / 4, 1 / 4⟩⟩,
    ⟨⟨6⟩, ⟨1 / 2, 1 / 2, 1 / 2, 1 / 2⟩⟩]

/-- The layouts before it, with the column. -/
def beforeStaggered : List (Layout ℚ) :=
  [[⟨⟨1⟩, ⟨0, 0, 1 / 2, 1⟩⟩, ⟨⟨2⟩, ⟨1 / 2, 0, 1 / 2, 1⟩⟩],
    [⟨⟨1⟩, ⟨0, 0, 1 / 2, 1 / 2⟩⟩, ⟨⟨2⟩, ⟨1 / 2, 0, 1 / 2, 1⟩⟩, ⟨⟨3⟩, ⟨0, 1 / 2, 1 / 2, 1 / 2⟩⟩],
    [⟨⟨1⟩, ⟨0, 0, 1 / 4, 1 / 2⟩⟩, ⟨⟨2⟩, ⟨1 / 2, 0, 1 / 2, 1⟩⟩, ⟨⟨3⟩, ⟨0, 1 / 2, 1 / 2, 1 / 2⟩⟩,
      ⟨⟨4⟩, ⟨1 / 4, 0, 1 / 4, 1 / 2⟩⟩],
    [⟨⟨1⟩, ⟨0, 0, 1 / 4, 1 / 4⟩⟩, ⟨⟨2⟩, ⟨1 / 2, 0, 1 / 2, 1⟩⟩, ⟨⟨3⟩, ⟨0, 1 / 2, 1 / 2, 1 / 2⟩⟩,
      ⟨⟨4⟩, ⟨1 / 4, 0, 1 / 4, 1 / 2⟩⟩, ⟨⟨5⟩, ⟨0, 1 / 4, 1 / 4, 1 / 4⟩⟩],
    [⟨⟨1⟩, ⟨0, 0, 1 / 4, 1 / 4⟩⟩, ⟨⟨2⟩, ⟨1 / 2, 0, 1 / 2, 1 / 2⟩⟩, ⟨⟨3⟩, ⟨0, 1 / 2, 1 / 2, 1 / 2⟩⟩,
      ⟨⟨4⟩, ⟨1 / 4, 0, 1 / 4, 1 / 2⟩⟩, ⟨⟨5⟩, ⟨0, 1 / 4, 1 / 4, 1 / 4⟩⟩,
      ⟨⟨6⟩, ⟨1 / 2, 1 / 2, 1 / 2, 1 / 2⟩⟩]].map (empty .horizontal).putAll

/-- Five splits and the removal of the column. -/
theorem run_staggered : ReflTransGen EditOnMesh (Config.standard.initial ⟨1⟩) staggered := by
  have split : ∀ {s t : Layout ℚ} (id : PanelId), s.Successor ⟨3, 3⟩ id t → t.OnMesh →
      EditOnMesh s t := fun _ hst ht => ⟨.split hst, ht⟩
  refine .head (b := beforeStaggered[0]) (split ⟨2⟩ (successor_iff.2 (by cbv)) (by decide +kernel)) ?_
  refine .head (b := beforeStaggered[1]) (split ⟨3⟩ (successor_iff.2 (by cbv)) (by decide +kernel)) ?_
  refine .head (b := beforeStaggered[2]) (split ⟨4⟩ (successor_iff.2 (by cbv)) (by decide +kernel)) ?_
  refine .head (b := beforeStaggered[3]) (split ⟨5⟩ (successor_iff.2 (by cbv)) (by decide +kernel)) ?_
  refine .head (b := beforeStaggered[4]) (split ⟨6⟩ (successor_iff.2 (by cbv)) (by decide +kernel)) ?_
  have hremove : beforeStaggered[4].remove ⟨4⟩ = .ok staggered := by cbv
  exact .single ⟨.removal hremove, by decide +kernel⟩

/-- The wide panel lies over the whole of the second half, and so there is a handle between them. -/
theorem exists_handle_staggered :
    (ReflTransGen EditOnMesh (Config.standard.initial ⟨1⟩) staggered ∧
      staggered.Contact ⟨⟨2⟩, ⟨1 / 4, 0, 3 / 4, 1 / 2⟩⟩ ⟨⟨6⟩, ⟨1 / 2, 1 / 2, 1 / 2, 1 / 2⟩⟩
        .horizontal .after) ∧
      ∃ h, staggered.HandleBetween .horizontal ⟨⟨2⟩, ⟨1 / 4, 0, 3 / 4, 1 / 2⟩⟩
        ⟨⟨6⟩, ⟨1 / 2, 1 / 2, 1 / 2, 1 / 2⟩⟩ .horizontal .after h := by
  have hcontact : staggered.Contact ⟨⟨2⟩, ⟨1 / 4, 0, 3 / 4, 1 / 2⟩⟩
      ⟨⟨6⟩, ⟨1 / 2, 1 / 2, 1 / 2, 1 / 2⟩⟩ .horizontal .after := by decide +kernel
  refine ⟨⟨run_staggered, hcontact⟩, ?_⟩
  exact (exists_handle_iff_of_run _ _ run_staggered hcontact .horizontal).2 (by decide +kernel)

/-- It ends over the middle of the first half, and there is no handle between these two. -/
theorem not_exists_handle_staggered :
    ReflTransGen EditOnMesh (Config.standard.initial ⟨1⟩) staggered ∧
      staggered.Contact ⟨⟨2⟩, ⟨1 / 4, 0, 3 / 4, 1 / 2⟩⟩ ⟨⟨3⟩, ⟨0, 1 / 2, 1 / 2, 1 / 2⟩⟩
        .horizontal .after ∧
      ∀ workspace, ¬ ∃ h, staggered.HandleBetween workspace ⟨⟨2⟩, ⟨1 / 4, 0, 3 / 4, 1 / 2⟩⟩
        ⟨⟨3⟩, ⟨0, 1 / 2, 1 / 2, 1 / 2⟩⟩ .horizontal .after h := by
  have hcontact : staggered.Contact ⟨⟨2⟩, ⟨1 / 4, 0, 3 / 4, 1 / 2⟩⟩
      ⟨⟨3⟩, ⟨0, 1 / 2, 1 / 2, 1 / 2⟩⟩ .horizontal .after := by decide +kernel
  have hperfect : staggered.Perfect := by decide +kernel
  refine ⟨run_staggered, hcontact, fun workspace => ?_⟩
  rw [hperfect.exists_handle_iff (by decide +kernel) hcontact]
  decide +kernel

end Layout

end Mosaic
