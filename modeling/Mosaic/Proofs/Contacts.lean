import Mosaic.Proofs.HandleList
import Mosaic.Proofs.Sides

/-!
# Panels in contact

Two panels are in contact when they share a stretch of an edge.  On the mesh the middle of the
stretch tells the contact apart from all others: two stretches of one line are disjoint, and even
half their lengths together are more than the tolerance.

* `Layout.Contact p q b side`: the panel `q` lies beyond a side of `p` and shares a stretch of it.
* `Rect.contact`: the middle of the stretch.
* `Contact.eq_of_near`: contacts whose middles are near are the same, up to the order of the panels.
-/

namespace Mosaic

open Coordinate

/-! ### What spans have in common -/

namespace Span

variable {s t u v : Span ℚ}

/-- The span from the later start to the earlier stop. -/
def common (s t : Span ℚ) : Span ℚ :=
  ⟨max s.start t.start, min s.stop t.stop - max s.start t.start⟩

/-- The middle of a span. -/
def middle (s : Span ℚ) : ℚ :=
  (s.start + s.stop) / 2

@[simp] theorem stop_common (s t : Span ℚ) : (s.common t).stop = min s.stop t.stop :=
  add_sub_cancel _ _

theorem common_comm (s t : Span ℚ) : s.common t = t.common s := by
  unfold common
  rw [max_comm, min_comm]

theorem includes_common (s t : Span ℚ) : s.Includes (s.common t) :=
  ⟨le_max_left _ _, (stop_common s t).trans_le (min_le_left _ _)⟩

theorem Meets.common_positive (h : s.Meets t) (hs : s.Positive) (ht : t.Positive) :
    (s.common t).Positive :=
  sub_pos.2 (max_lt (lt_min (start_lt_stop hs) h.1) (lt_min h.2 (start_lt_stop ht)))

theorem OnMesh.common (hs : s.OnMesh) (ht : t.OnMesh) : (s.common t).OnMesh := by
  have hstart : Mosaic.OnMesh (max s.start t.start) := by
    rcases max_choice s.start t.start with h | h <;> rw [h]
    · exact hs.1
    · exact ht.1
  have hstop : Mosaic.OnMesh (min s.stop t.stop) := by
    rcases min_choice s.stop t.stop with h | h <;> rw [h]
    · exact hs.stop
    · exact ht.stop
  exact ⟨hstart, hstop.sub hstart⟩

theorem overlapMidpoint_eq (s t : Span ℚ) : s.overlapMidpoint t = (s.common t).middle := by
  unfold overlapMidpoint middle
  rw [half_eq_div_two, greatest_eq_max, least_eq_min, stop_common]
  rfl

/-- A span that lies before another one on the mesh has its middle more than the tolerance before
the other's. -/
theorem not_near_middle (hs : s.OnMesh) (ht : t.OnMesh) (hspos : s.Positive) (htpos : t.Positive)
    (h : s.stop ≤ t.start) : ¬ Near s.middle t.middle := by
  rintro ⟨-, hnear⟩
  have hnear' : t.middle - s.middle ≤ 1 / 1000000 := hnear
  have hsmesh := hs.2.mesh_le hspos
  have htmesh := ht.2.mesh_le htpos
  unfold middle at hnear'
  rw [stop_eq] at h
  rw [stop_eq, stop_eq] at hnear'
  have htolerance : (1 / 1000000 : ℚ) < mesh := tolerance_lt_mesh
  linarith

/-- Spans on the mesh whose middles are near have a stretch in common. -/
theorem meets_of_near_middle (hs : s.OnMesh) (ht : t.OnMesh) (hspos : s.Positive)
    (htpos : t.Positive) (h : Near s.middle t.middle) : s.Meets t := by
  by_contra hnot
  rcases not_meets_iff.1 hnot with hle | hle
  · exact not_near_middle ht hs htpos hspos hle h.symm
  · exact not_near_middle hs ht hspos htpos hle h

/-- Spans meet as soon as parts of them do. -/
theorem Meets.of_includes (h : u.Meets v) (hs : s.Includes u) (ht : t.Includes v) : s.Meets t :=
  (h.mono ht).symm.mono hs |>.symm

end Span

theorem Point.near_onLine {b : Orientation} {l l' x x' : ℚ} :
    (Point.onLine b l x).Near (.onLine b l' x') ↔ Coordinate.Near l l' ∧ Coordinate.Near x x' := by
  cases b
  · exact And.comm
  · exact Iff.rfl

/-! ### The middle of a contact -/

namespace Rect

variable {r q : Rect ℚ} {b : Orientation} {side : Side}

/-- The middle of the stretch that two rectangles share on a side of the first. -/
def contact (r q : Rect ℚ) (b : Orientation) (side : Side) : Point ℚ :=
  .onLine b (r.edge b side) ((r.along b).common (q.along b)).middle

theorem Borders.contact_symm (h : r.Borders q b side) :
    q.contact r b side.flip = r.contact q b side := by
  unfold contact
  rw [h.1, Span.common_comm]

/-- The rule for the position of a handle gives the middle of the contact. -/
theorem Borders.midpointBetween_eq (h : r.Borders q b side) (hr : r.OnMesh) (hq : q.OnMesh)
    (hrpos : (r.along b.flip).Positive) (hqpos : (q.along b.flip).Positive) :
    r.midpointBetween q b = r.contact q b side := by
  have hmeeting : (r.along b.flip).meeting (q.along b.flip) = r.edge b side := by
    have hnear := (hq.along b.flip).1.near_iff (hr.along b.flip).stop
    have hrlt := Span.start_lt_stop hrpos
    have hqlt := Span.start_lt_stop hqpos
    unfold Span.meeting
    cases side with
    | before =>
      have hmeet : (q.along b.flip).stop = (r.along b.flip).start := h.1
      rw [if_neg fun hn => (hqlt.trans_eq hmeet |>.trans hrlt).ne (hnear.1 hn)]
      rfl
    | after =>
      have hmeet : (q.along b.flip).start = (r.along b.flip).stop := h.1
      rw [if_pos (hnear.2 hmeet)]
      rfl
  unfold midpointBetween contact
  rw [hmeeting, Span.overlapMidpoint_eq]

end Rect

/-! ### Contacts of a perfect layout -/

namespace Layout

variable {s : Layout ℚ} {p q p' q' : Panel ℚ} {b : Orientation} {side side' : Side}

/-- Two panels in contact: the second one lies beyond a side of the first and shares a stretch of
it. -/
structure Contact (s : Layout ℚ) (p q : Panel ℚ) (b : Orientation) (side : Side) : Prop where
  left : p ∈ s.panels
  right : q ∈ s.panels
  borders : p.rect.Borders q.rect b side

theorem contact_iff :
    s.Contact p q b side ↔ p ∈ s.panels ∧ q ∈ s.panels ∧ p.rect.Borders q.rect b side :=
  ⟨fun ⟨hp, hq, h⟩ => ⟨hp, hq, h⟩, fun ⟨hp, hq, h⟩ => ⟨hp, hq, h⟩⟩

instance (s : Layout ℚ) (p q : Panel ℚ) (b : Orientation) (side : Side) :
    Decidable (s.Contact p q b side) :=
  decidable_of_iff _ contact_iff.symm

namespace Contact

theorem symm (h : s.Contact p q b side) : s.Contact q p b side.flip :=
  ⟨h.right, h.left, h.borders.symm⟩

theorem contact_symm (h : s.Contact p q b side) :
    q.rect.contact p.rect b side.flip = p.rect.contact q.rect b side :=
  h.borders.contact_symm

theorem onMesh_common (h : s.Contact p q b side) (hm : s.OnMesh) :
    ((p.rect.along b).common (q.rect.along b)).OnMesh :=
  ((hm p h.left).along b).common ((hm q h.right).along b)

theorem positive_common (h : s.Contact p q b side) (hs : s.Perfect) :
    ((p.rect.along b).common (q.rect.along b)).Positive :=
  h.borders.2.common_positive (hs.positive p h.left b) (hs.positive q h.right b)

theorem eq_of_near_of_side (h : s.Contact p q b side) (h' : s.Contact p' q' b side)
    (hs : s.Perfect) (hm : s.OnMesh)
    (hnear : (p.rect.contact q.rect b side).Near (p'.rect.contact q'.rect b side)) :
    p' = p ∧ q' = q := by
  obtain ⟨hline, hmiddle⟩ := Point.near_onLine.1 hnear
  have hedge : p.rect.edge b side = p'.rect.edge b side :=
    (((hm p h.left).along _).bound side |>.near_iff (((hm p' h'.left).along _).bound side)).1 hline
  have hmeets := Span.meets_of_near_middle (h.onMesh_common hm) (h'.onMesh_common hm)
    (h.positive_common hs) (h'.positive_common hs) hmiddle
  constructor
  · refine (hs.eq_of_edge_eq h.left h'.left hedge ?_).symm
    exact hmeets.of_includes (Span.includes_common _ _) (Span.includes_common _ _)
  · have hedge' : q.rect.edge b side.flip = q'.rect.edge b side.flip :=
      h.borders.1.trans (hedge.trans h'.borders.1.symm)
    refine (hs.eq_of_edge_eq h.right h'.right hedge' ?_).symm
    rw [Span.common_comm, Span.common_comm (p'.rect.along b)] at hmeets
    exact hmeets.of_includes (Span.includes_common _ _) (Span.includes_common _ _)

/-- **Contacts whose middles are near are the same**, up to the order of the panels. -/
theorem eq_of_near (h : s.Contact p q b side) (h' : s.Contact p' q' b side') (hs : s.Perfect)
    (hm : s.OnMesh)
    (hnear : (p.rect.contact q.rect b side).Near (p'.rect.contact q'.rect b side')) :
    (p' = p ∧ q' = q) ∧ side' = side ∨ (p' = q ∧ q' = p) ∧ side' = side.flip := by
  rcases Side.eq_or_eq_flip side side' with rfl | rfl
  · exact Or.inl ⟨h.eq_of_near_of_side h' hs hm hnear, rfl⟩
  · rw [← h.contact_symm] at hnear
    exact Or.inr ⟨h.symm.eq_of_near_of_side h' hs hm hnear, rfl⟩

end Contact

end Layout

end Mosaic
