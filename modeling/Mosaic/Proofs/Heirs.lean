import Mosaic.Proofs.Bookkeeping
import Mosaic.Proofs.Pinwheel

/-!
# Who owns what after a removal

A point that is on no edge lies in the panel that owns it.  A removal hands the removed area over
and touches nothing else: each neighbour along one side takes the slice of the hole beyond its own
extent, and every other point keeps its owner.

* `Layout.Owns`, `Layout.Clear`: the owner of a point, and points on no edge.
* `Rect.Borders.holds_growOver_iff`: a grown neighbour holds its own points and its slice.
* `Layout.Perfect.exists_handOver`: every removal hands over along one side, that of one of two
  panels too.
* `Layout.owners_of_remove`: the owners inside and outside the removed rectangle.
-/

namespace Mosaic

open Coordinate

/-! ### Slices -/

/-- Two consecutive intervals and the number where they meet make up one interval. -/
theorem inside_iff_of_ne {a b c x : ℝ} (hab : a < b) (hbc : b < c) (hx : x ≠ b) :
    (a < x ∧ x < c) ↔ (a < x ∧ x < b) ∨ b < x ∧ x < c := by
  constructor
  · rintro ⟨hax, hxc⟩
    rcases hx.lt_or_gt with hlt | hgt
    · exact Or.inl ⟨hax, hlt⟩
    · exact Or.inr ⟨hgt, hxc⟩
  · rintro (⟨hax, hxb⟩ | ⟨hbx, hxc⟩)
    · exact ⟨hax, hxb.trans hbc⟩
    · exact ⟨hab.trans hbx, hxc⟩

namespace Rect

variable {r q : Rect ℚ} {b : Orientation} {side : Side} {v : Point ℝ}

theorem holds_iff (b : Orientation) :
    r.Holds v ↔ (r.lower b < v.along b ∧ v.along b < r.upper b) ∧
      r.lower b.flip < v.along b.flip ∧ v.along b.flip < r.upper b.flip :=
  Orientation.forall_iff b

/-- A point on the line of a side and between its ends is on the edge. -/
theorem onEdge_of_along_eq_edge (hq : (q.along b.flip).Positive)
    (hin : q.lower b < v.along b ∧ v.along b < q.upper b) (hv : v.along b.flip = q.edge b side) :
    q.OnEdge v := by
  have hlt : q.lower b.flip < q.upper b.flip := Rat.cast_lt.2 (Span.start_lt_stop hq)
  refine ⟨fun o => ?_, fun hholds => ?_⟩
  · rcases Orientation.eq_or_eq_flip b o with rfl | rfl
    · exact ⟨hin.1.le, hin.2.le⟩
    · rw [hv]
      cases side with
      | before => exact ⟨le_rfl, hlt.le⟩
      | after => exact ⟨hlt.le, le_rfl⟩
  · have hcross := hholds b.flip
    rw [hv] at hcross
    cases side with
    | before => exact lt_irrefl _ hcross.1
    | after => exact lt_irrefl _ hcross.2

/-- The line of the shared edge apart, the grown neighbour spans what the two rectangles span. -/
theorem Borders.crosses_growOver_iff (h : r.Borders q b side) (hr : (r.along b.flip).Positive)
    (hq : (q.along b.flip).Positive) {x : ℝ} (hx : x ≠ q.edge b side.flip) :
    ((q.growOver r b).lower b.flip < x ∧ x < (q.growOver r b).upper b.flip) ↔
      (q.lower b.flip < x ∧ x < q.upper b.flip) ∨ r.lower b.flip < x ∧ x < r.upper b.flip := by
  obtain ⟨hfar, hnear⟩ := h.edge_growOver hr hq
  have hrlt : r.lower b.flip < r.upper b.flip := Rat.cast_lt.2 (Span.start_lt_stop hr)
  have hqlt : q.lower b.flip < q.upper b.flip := Rat.cast_lt.2 (Span.start_lt_stop hq)
  cases side with
  | before =>
    have hlower : (q.growOver r b).lower b.flip = q.lower b.flip := congrArg Rat.cast hfar
    have hupper : (q.growOver r b).upper b.flip = r.upper b.flip := congrArg Rat.cast hnear
    have hshared : q.upper b.flip = r.lower b.flip := congrArg Rat.cast h.1
    rw [hlower, hupper, ← hshared]
    exact inside_iff_of_ne hqlt (hshared ▸ hrlt) hx
  | after =>
    have hlower : (q.growOver r b).lower b.flip = r.lower b.flip := congrArg Rat.cast hnear
    have hupper : (q.growOver r b).upper b.flip = q.upper b.flip := congrArg Rat.cast hfar
    have hshared : q.lower b.flip = r.upper b.flip := congrArg Rat.cast h.1
    rw [hlower, hupper, ← hshared, or_comm]
    exact inside_iff_of_ne (hshared ▸ hrlt) hqlt hx

/-- **A grown neighbour holds what it held before and its slice of the rectangle.**  The slice is
the part of the rectangle within the extent of the neighbour. -/
theorem Borders.holds_growOver_iff (h : r.Borders q b side) (hin : (r.along b).Includes (q.along b))
    (hr : (r.along b.flip).Positive) (hq : (q.along b.flip).Positive) (hoff : ¬ q.OnEdge v) :
    (q.growOver r b).Holds v ↔
      q.Holds v ∨ r.Holds v ∧ q.lower b < v.along b ∧ v.along b < q.upper b := by
  have hlower : (q.growOver r b).lower b = q.lower b := by
    unfold lower
    rw [along_growOver]
  have hupper : (q.growOver r b).upper b = q.upper b := by
    unfold upper
    rw [along_growOver]
  have hlow : r.lower b ≤ q.lower b := Rat.cast_le.2 hin.1
  have hupp : q.upper b ≤ r.upper b := Rat.cast_le.2 hin.2
  rw [holds_iff b, holds_iff b, holds_iff b, hlower, hupper]
  by_cases halong : q.lower b < v.along b ∧ v.along b < q.upper b
  · have hr' : r.lower b < v.along b ∧ v.along b < r.upper b :=
      ⟨hlow.trans_lt halong.1, halong.2.trans_le hupp⟩
    have hne : v.along b.flip ≠ q.edge b side.flip :=
      fun heq => hoff (onEdge_of_along_eq_edge hq halong heq)
    rw [h.crosses_growOver_iff hr hq hne]
    simp only [halong, hr', and_self, true_and, and_true]
  · simp only [halong, false_and, and_false, or_self]

end Rect

/-! ### Owners -/

namespace Layout

/-- The point lies in the panel of the label. -/
def Owns (s : Layout ℚ) (id : PanelId) (v : Point ℝ) : Prop :=
  ∃ q ∈ s.panels, q.id = id ∧ q.rect.Holds v

/-- The point is on no edge of a panel. -/
def Clear (s : Layout ℚ) (v : Point ℝ) : Prop :=
  ∀ q ∈ s.panels, ¬ q.rect.OnEdge v

variable {s t : Layout ℚ} {p q : Panel ℚ} {b : Orientation} {side : Side} {v : Point ℝ}
  {id : PanelId}

/-- After the area has been handed over along a side, a panel has grown there or is as before. -/
theorem mem_handOver (hp : p ∈ s.panels) :
    q ∈ ((s.erase p.id).handOver p.rect ((s.erase p.id).flank p b side)).panels ↔
      (∃ k ∈ ((s.erase p.id).flank p b side).panels, q = ⟨k.id, k.rect.growOver p.rect b⟩) ∨
        q ∈ s.panels ∧ q ≠ p ∧ q ∉ ((s.erase p.id).flank p b side).panels := by
  rw [(s.perm_handOver_flank p b side).mem_iff, List.mem_append, mem_others hp, List.mem_map]
  simp only [eq_comm]

namespace Perfect

/-- Panels that hold a common point are the same panel. -/
theorem eq_of_holds (h : s.Perfect) (hp : p ∈ s.panels) (hq : q ∈ s.panels)
    (hpv : p.rect.Holds v) (hqv : q.rect.Holds v) : p = q := by
  by_contra hne
  obtain ⟨o, ho⟩ := h.apart p hp q hq hne
  refine ho ⟨?_, ?_⟩
  · exact Rat.cast_lt.1 ((hpv o).1.trans (hqv o).2)
  · exact Rat.cast_lt.1 ((hqv o).1.trans (hpv o).2)

/-- A panel that is alone fills the workspace. -/
theorem eq_single (h : s.Perfect) (hids : s.ids = [id]) : s = single id s.orientation := by
  obtain ⟨q, hq, rfl⟩ := List.map_eq_singleton_iff.1 hids
  have hmem : q ∈ s.panels := by simp [hq]
  have harea : (q.rect.along .horizontal).extent * (q.rect.along .vertical).extent = 1 := by
    have hsum := h.area
    simpa [hq, Rect.area_eq q.rect .horizontal] using hsum
  have hstart : ∀ o, 0 ≤ (q.rect.along o).start := fun o => (h.within q hmem o).1
  have hstop : ∀ o, (q.rect.along o).start + (q.rect.along o).extent ≤ 1 :=
    fun o => (h.within q hmem o).2
  have hpos : ∀ o, 0 < (q.rect.along o).extent := h.positive q hmem
  have hle : ∀ o, (q.rect.along o).extent ≤ 1 := fun o => by linarith [hstart o, hstop o]
  -- two factors of at most one have the product one only if they are one
  have hextent : ∀ o, (q.rect.along o).extent = 1 := by
    have hmul := mul_le_of_le_one_right (hpos .horizontal).le (hle .vertical)
    have hmul' := mul_le_of_le_one_left (hpos .vertical).le (hle .horizontal)
    intro o
    cases o
    · exact le_antisymm (hle _) (harea ▸ hmul)
    · exact le_antisymm (hle _) (harea ▸ hmul')
  have halong : ∀ o, q.rect.along o = (Rect.unit : Rect ℚ).along o := fun o => by
    rw [Rect.along_unit]
    have hzero : (q.rect.along o).start = 0 := by linarith [hstart o, hstop o, hextent o]
    rw [← hzero, ← hextent o]
  have hrect : q.rect = .unit := Rect.ext_along .horizontal (halong _) (halong _)
  refine ext_panels rfl ?_
  rw [hq, show q = ⟨q.id, .unit⟩ by rw [← hrect]]
  rfl

/-- One of two panels has a flush side. -/
theorem exists_flush_of_size_eq_two (h : s.Perfect) (hp : p ∈ s.panels) (hsize : s.size = 2) :
    ∃ b side, s.Flush p.rect b side := by
  by_contra hno
  push Not at hno
  have hcentre := h.pinwheelCentre_of_not_flush hp hsize.ge hno
  have hfive := h.five_le_size hp hcentre.inner
  omega

/-- **Every removal hands the area over along one side.**  Of two panels, the one that stays fills
the workspace, and that is what it grows to. -/
theorem exists_handOver (h : s.Perfect) (hm : s.OnMesh) (hp : p ∈ s.panels) (hsize : 2 ≤ s.size)
    (ht : s.remove p.id = .ok t) :
    ∃ b side, ((s.erase p.id).flank p b side).Usable p.rect ∧
      t = (s.erase p.id).handOver p.rect ((s.erase p.id).flank p b side) := by
  rcases hsize.eq_or_lt with htwo | hthree
  · obtain ⟨b, side, hflush⟩ := h.exists_flush_of_size_eq_two hp htwo.symm
    have hu := (h.usable_iff_flush hm hp).2 hflush
    refine ⟨b, side, hu, ?_⟩
    obtain ⟨survivor, hrest⟩ : ∃ survivor, (s.erase p.id).panels = [survivor] := by
      refine List.length_eq_one_iff.1 ?_
      have hlength := size_erase hp
      unfold size at *
      omega
    rw [remove_eq hp, hrest] at ht
    have hids := perm_ids_handOver (s.erase p.id) p.rect p b side
    have hone : (s.erase p.id).ids = [survivor.id] := by simp [ids, hrest]
    rw [hone, List.perm_singleton] at hids
    rw [(h.handOver hm hp hu).eq_single hids]
    cases ht
    rw [Layout.handOver, orientation_putAll, orientation_erase]
  · rw [remove_of_three_le hp hthree] at ht
    split at ht
    · cases ht
    next hheirs =>
      cases ht
      obtain ⟨b, side, rfl, hu⟩ := exists_of_heirs? hheirs
      exact ⟨b, side, hu, rfl⟩

/-- A panel of the flank, after it has grown, holds what it held before and its slice. -/
theorem holds_grown_iff (h : s.Perfect) (hm : s.OnMesh) (hp : p ∈ s.panels)
    (hq : q ∈ ((s.erase p.id).flank p b side).panels) (hv : s.Clear v) :
    (q.rect.growOver p.rect b).Holds v ↔
      q.rect.Holds v ∨
        p.rect.Holds v ∧ q.rect.lower b < v.along b ∧ v.along b < q.rect.upper b := by
  obtain ⟨hqs, hborders, hin⟩ := (h.mem_flank_iff hm hp).1 hq
  exact hborders.holds_growOver_iff hin (h.positive p hp _) (h.positive q hqs _) (hv q hqs)

/-- Outside the removed rectangle every point keeps its owner. -/
theorem owns_handOver_iff (h : s.Perfect) (hm : s.OnMesh) (hp : p ∈ s.panels) (hv : s.Clear v)
    (hout : ¬ p.rect.Holds v) :
    ((s.erase p.id).handOver p.rect ((s.erase p.id).flank p b side)).Owns id v ↔ s.Owns id v := by
  constructor
  · rintro ⟨q, hq, rfl, hqv⟩
    rcases (mem_handOver hp).1 hq with ⟨k, hk, rfl⟩ | ⟨hqs, -, -⟩
    · have hks := ((h.mem_flank_iff hm hp).1 hk).1
      have hkv := ((h.holds_grown_iff hm hp hk hv).1 hqv).resolve_right fun hslice => hout hslice.1
      exact ⟨k, hks, rfl, hkv⟩
    · exact ⟨q, hqs, rfl, hqv⟩
  · rintro ⟨q, hq, rfl, hqv⟩
    by_cases hqf : q ∈ ((s.erase p.id).flank p b side).panels
    · have hgrown := (h.holds_grown_iff hm hp hqf hv).2 (Or.inl hqv)
      exact ⟨_, (mem_handOver hp).2 (Or.inl ⟨q, hqf, rfl⟩), rfl, hgrown⟩
    · have hne : q ≠ p := by
        rintro rfl
        exact hout hqv
      exact ⟨q, (mem_handOver hp).2 (Or.inr ⟨hq, hne, hqf⟩), rfl, hqv⟩

/-- The owners of points inside the removed rectangle border it along the side. -/
theorem borders_of_owns_handOver (h : s.Perfect) (hm : s.OnMesh) (hp : p ∈ s.panels)
    (hin : p.rect.Holds v)
    (howns : ((s.erase p.id).handOver p.rect ((s.erase p.id).flank p b side)).Owns id v) :
    ∃ k ∈ s.panels, k.id = id ∧ p.rect.Borders k.rect b side ∧
      (p.rect.along b).Includes (k.rect.along b) := by
  obtain ⟨q, hq, rfl, hqv⟩ := howns
  rcases (mem_handOver hp).1 hq with ⟨k, hk, rfl⟩ | ⟨hqs, hne, -⟩
  · obtain ⟨hks, hborders, hincludes⟩ := (h.mem_flank_iff hm hp).1 hk
    exact ⟨k, hks, rfl, hborders, hincludes⟩
  · exact absurd (h.eq_of_holds hqs hp hqv hin) hne

end Perfect

/-- **A removal hands over the removed area and nothing else.**  In a layout of two panels or more,
a point outside the removed rectangle and on no edge keeps its owner.  A point inside that is on no
edge afterwards has exactly one owner, and all owners of points inside border the removed rectangle
along one and the same side, within its extent. -/
theorem owners_of_remove (h : s.Tiles) (hm : s.OnMesh) (hp : p ∈ s.panels) (hsize : 2 ≤ s.size)
    (ht : s.remove p.id = .ok t) :
    (∀ v, s.Clear v → ¬ p.rect.Holds v → ∀ id, t.Owns id v ↔ s.Owns id v) ∧
      (∀ v, t.Clear v → p.rect.Holds v → ∃! q, q ∈ t.panels ∧ q.rect.Holds v) ∧
      ∃ b side, ∀ v, p.rect.Holds v → ∀ id, t.Owns id v →
        ∃ k ∈ s.panels, k.id = id ∧ p.rect.Borders k.rect b side ∧
          (p.rect.along b).Includes (k.rect.along b) := by
  have hperfect := tiles_iff_perfect.1 h
  obtain ⟨b, side, hu, rfl⟩ := hperfect.exists_handOver hm hp hsize ht
  refine ⟨?_, ?_, b, side, ?_⟩
  · exact fun v hv hout id => hperfect.owns_handOver_iff hm hp hv hout
  · intro v hv hin
    refine (tiles_iff_perfect.2 (hperfect.handOver hm hp hu)).existsUnique v (fun o => ?_) hv
    obtain ⟨hzero, hone⟩ := Rect.within_real (hperfect.within p hp o)
    exact ⟨hzero.trans (hin o).1.le, (hin o).2.le.trans hone⟩
  · exact fun v hin id howns => hperfect.borders_of_owns_handOver hm hp hin howns

/-- A column that is handed over to the halves beside it. -/
theorem owners_of_remove_columnAndHalves :
    (columnAndHalves.Tiles ∧ columnAndHalves.OnMesh ∧ 2 ≤ columnAndHalves.size ∧
      columnAndHalves.remove ⟨1⟩ = .ok rows) ∧
    (∀ v, columnAndHalves.Clear v → ¬ (⟨0, 0, 1 / 2, 1⟩ : Rect ℚ).Holds v →
      ∀ id, rows.Owns id v ↔ columnAndHalves.Owns id v) ∧
    ∀ v, rows.Clear v → (⟨0, 0, 1 / 2, 1⟩ : Rect ℚ).Holds v →
      ∃! q, q ∈ rows.panels ∧ q.rect.Holds v := by
  have htiles : columnAndHalves.Tiles := by decide +kernel
  have hmesh : columnAndHalves.OnMesh := by decide +kernel
  have hmem : ⟨⟨1⟩, ⟨0, 0, 1 / 2, 1⟩⟩ ∈ columnAndHalves.panels := by decide +kernel
  have hsize : 2 ≤ columnAndHalves.size := by decide +kernel
  obtain ⟨outside, inside, -⟩ := owners_of_remove htiles hmesh hmem hsize remove_columnAndHalves
  exact ⟨⟨htiles, hmesh, hsize, remove_columnAndHalves⟩, outside, inside⟩

end Layout

end Mosaic
