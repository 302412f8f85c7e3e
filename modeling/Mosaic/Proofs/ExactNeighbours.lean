import Mosaic.Proofs.FineMesh
import Mosaic.Proofs.HandleList

/-!
# Exact neighbours and handles

Neighbours are found by comparisons of edges, and handles sit at edges and at middles between edges.
On the mesh in the workspace both are exact: what is computed with doubles is, number by number,
what exact arithmetic computes, in the same order and with the same labels.

* `Rect.sideTouched_values`, `Layout.neighbours_values`: neighbours.
* `Binary64.OnUnitFineMesh`: a finite double on the fine mesh, in the workspace, as all coordinates
  of handles are.
* `Layout.handles_values`: handles.
-/

namespace Mosaic

open Coordinate

/-- The neighbour with the numbers of its rectangle. -/
def Neighbour.values (n : Neighbour Float) : Neighbour ℚ :=
  ⟨n.panel.values, n.boundary, n.side⟩

/-- The numbers that the coordinates stand for. -/
def Point.values (p : Point Float) : Point ℚ :=
  ⟨Binary64.value p.x, Binary64.value p.y⟩

/-- The handle with the numbers of its position. -/
def Handle.values (h : Handle Float) : Handle ℚ :=
  ⟨h.boundary, h.position.values, h.panels⟩

open Binary64

/-! ### Neighbours -/

theorem Binary64.OnUnitMesh.atMost_iff {a b : Float} (ha : OnUnitMesh a) (hb : OnUnitMesh b) :
    AtMost a b ↔ AtMost (value a) (value b) := by
  unfold AtMost
  rw [ha.near_iff hb, lt_iff_of_represents ha.represents hb.represents]

theorem Span.OnUnitMesh.value_stop {s : Span Float} (h : s.OnUnitMesh) :
    value s.stop = s.values.stop :=
  h.represents_stop.value_eq

theorem Span.covers_values {s t : Span Float} (hs : s.OnUnitMesh) (ht : t.OnUnitMesh) :
    s.values.Covers t.values ↔ s.Covers t := by
  unfold Covers
  rw [hs.ends.1.atMost_iff ht.ends.1, ht.ends.2.atMost_iff hs.ends.2, hs.value_stop, ht.value_stop]
  rfl

section Touching

variable {r q : Rect Float} (hr : ∀ o, (r.along o).OnUnitMesh) (hq : ∀ o, (q.along o).OnUnitMesh)
include hr hq

theorem Rect.near_stop_start_values (o : Orientation) :
    Coordinate.Near (r.values.along o).stop (q.values.along o).start ↔
      Coordinate.Near (r.along o).stop (q.along o).start := by
  rw [(hr o).ends.2.near_iff (hq o).ends.1, (hr o).value_stop, along_values, along_values]
  rfl

theorem Rect.near_start_stop_values (o : Orientation) :
    Coordinate.Near (r.values.along o).start (q.values.along o).stop ↔
      Coordinate.Near (r.along o).start (q.along o).stop := by
  rw [(hr o).ends.1.near_iff (hq o).ends.2, (hq o).value_stop, along_values, along_values]
  rfl

/-- **The sides that rectangles touch are exact.** -/
theorem Rect.sideTouched_values (b : Orientation) :
    r.values.sideTouched q.values b = r.sideTouched q b := by
  have hcovers : (r.values.along b).Covers (q.values.along b) ↔ (r.along b).Covers (q.along b) := by
    rw [along_values, along_values, Span.covers_values (hr b) (hq b)]
  unfold sideTouched
  rw [if_congr hcovers (if_congr (near_stop_start_values hq hr b.flip) rfl
    (if_congr (near_start_stop_values hq hr b.flip) rfl rfl)) rfl]

end Touching

namespace Layout

variable {s : Layout Float} {p : Panel Float}

theorem panels_values (s : Layout Float) : s.values.panels = s.panels.map Panel.values := rfl

/-- **Neighbours are exact.** -/
theorem neighbours_values (hs : s.OnUnitMesh) (hp : ∀ o, (p.rect.along o).OnUnitMesh)
    (boundaries : List Orientation) :
    s.values.neighbours p.values boundaries =
      (s.neighbours p boundaries).map Neighbour.values := by
  unfold neighbours
  rw [panels_values, List.filter_map, List.flatMap_map, List.map_flatMap]
  refine List.flatMap_congr fun q hq => ?_
  have hq : q ∈ s.panels := (List.mem_filter.1 hq).1
  rw [List.map_filterMap]
  refine List.filterMap_congr fun b _ => ?_
  rw [Option.map_map]
  change (p.rect.values.sideTouched q.rect.values b).map _ = _
  rw [Rect.sideTouched_values hp (hs q hq)]
  rfl

end Layout

/-! ### Positions -/

namespace Binary64

/-- The double is finite and on the fine mesh, and lies in the workspace. -/
structure OnUnitFineMesh (a : Float) : Prop where
  represents : Represents a (value a)
  onFineMesh : OnFineMesh (value a)
  mem : 0 ≤ value a ∧ value a ≤ 1

variable {a b : Float}

theorem OnUnitMesh.onUnitFineMesh (h : OnUnitMesh a) : OnUnitFineMesh a :=
  ⟨h.represents, h.onMesh.onFineMesh, h.mem⟩

theorem OnUnitFineMesh.near_iff (ha : OnUnitFineMesh a) (hb : OnUnitFineMesh b) :
    Near (value a) (value b) ↔ Near a b := by
  refine (near_iff_of_onFineMesh ha.represents hb.represents ha.onFineMesh hb.onFineMesh ?_).symm
  exact abs_le.2 ⟨by linarith [ha.mem.1, hb.mem.2], by linarith [ha.mem.2, hb.mem.1]⟩

/-- The smaller and the larger of two doubles are one of them, and exact. -/
theorem OnUnitMesh.least (ha : OnUnitMesh a) (hb : OnUnitMesh b) :
    OnUnitMesh (least a b) ∧ value (Coordinate.least a b) =
      Coordinate.least (value a) (value b) := by
  have hself : a ≤ a := (le_iff_of_represents ha.represents ha.represents).2 le_rfl
  unfold Coordinate.least
  simp only [lt_iff_of_represents hb.represents ha.represents, hself, le_refl, if_true]
  split
  · exact ⟨hb, rfl⟩
  · exact ⟨ha, rfl⟩

theorem OnUnitMesh.greatest (ha : OnUnitMesh a) (hb : OnUnitMesh b) :
    OnUnitMesh (greatest a b) ∧ value (Coordinate.greatest a b) =
      Coordinate.greatest (value a) (value b) := by
  have hself : a ≤ a := (le_iff_of_represents ha.represents ha.represents).2 le_rfl
  unfold Coordinate.greatest
  simp only [lt_iff_of_represents ha.represents hb.represents, hself, le_refl, if_true]
  split
  · exact ⟨hb, rfl⟩
  · exact ⟨ha, rfl⟩

theorem OnUnitMesh.half_add (ha : OnUnitMesh a) (hb : OnUnitMesh b) :
    OnUnitFineMesh (half (a + b)) ∧ value (half (a + b)) = half (value a + value b) := by
  have hhalf := ha.represents_half_add hb
  have hvalue := hhalf.value_eq
  refine ⟨⟨hhalf.self, ?_, ?_⟩, hvalue⟩
  · rw [hvalue]
    exact (ha.onMesh.add hb.onMesh).onFineMesh_half
  · rw [hvalue, half_eq_div_two]
    exact ⟨by linarith [ha.mem.1, hb.mem.1], by linarith [ha.mem.2, hb.mem.2]⟩

end Binary64

namespace Span

variable {s t : Span Float} (hs : s.OnUnitMesh) (ht : t.OnUnitMesh)
include hs ht

/-- The end that is touched is exact ... -/
theorem meeting_values :
    Binary64.OnUnitFineMesh (s.meeting t) ∧ value (s.meeting t) = s.values.meeting t.values := by
  have hnear : Near t.values.start s.values.stop ↔ Near t.start s.stop := by
    rw [ht.ends.1.near_iff hs.ends.2, hs.value_stop]
    rfl
  unfold meeting
  simp only [hnear]
  split
  · exact ⟨hs.ends.2.onUnitFineMesh, hs.value_stop⟩
  · exact ⟨hs.ends.1.onUnitFineMesh, rfl⟩

/-- ... and so is the middle of what two spans have in common. -/
theorem overlapMidpoint_values : Binary64.OnUnitFineMesh (s.overlapMidpoint t) ∧
    value (s.overlapMidpoint t) = s.values.overlapMidpoint t.values := by
  obtain ⟨hgreatest, hgreatest'⟩ := hs.ends.1.greatest ht.ends.1
  obtain ⟨hleast, hleast'⟩ := hs.ends.2.least ht.ends.2
  obtain ⟨hhalf, hvalue⟩ := hgreatest.half_add hleast
  refine ⟨hhalf, hvalue.trans ?_⟩
  rw [hgreatest', hleast', hs.value_stop, ht.value_stop]
  rfl

end Span

theorem Point.values_onLine (o : Orientation) (l p : Float) :
    (onLine o l p).values = onLine o (value l) (value p) := by
  cases o <;> rfl

/-- Both coordinates are finite and on the fine mesh, in the workspace. -/
def Point.OnUnitFineMesh (p : Point Float) : Prop :=
  Binary64.OnUnitFineMesh p.x ∧ Binary64.OnUnitFineMesh p.y

theorem Point.near_values {p q : Point Float} (hp : p.OnUnitFineMesh) (hq : q.OnUnitFineMesh) :
    p.values.Near q.values ↔ p.Near q :=
  and_congr (hp.1.near_iff hq.1) (hp.2.near_iff hq.2)

/-- The middle of a shared edge is exact. -/
theorem Rect.midpointBetween_values {r q : Rect Float} (hr : ∀ o, (r.along o).OnUnitMesh)
    (hq : ∀ o, (q.along o).OnUnitMesh) (b : Orientation) :
    (r.midpointBetween q b).OnUnitFineMesh ∧
      (r.midpointBetween q b).values = r.values.midpointBetween q.values b := by
  obtain ⟨hline, hline'⟩ := Span.meeting_values (hr b.flip) (hq b.flip)
  obtain ⟨hmiddle, hmiddle'⟩ := Span.overlapMidpoint_values (hr b) (hq b)
  unfold midpointBetween
  constructor
  · cases b
    · exact ⟨hmiddle, hline⟩
    · exact ⟨hline, hmiddle⟩
  · simp only [Point.values_onLine, hline', hmiddle', along_values]

/-! ### Handles -/

namespace Handle

variable {h k : Handle Float} {hs : List (Handle Float)} {b : Orientation}

/-- The position of the handle is finite and on the fine mesh, in the workspace. -/
def OnUnitFineMesh (h : Handle Float) : Prop :=
  h.position.OnUnitFineMesh

theorem OnUnitFineMesh.line (hh : h.OnUnitFineMesh) : Binary64.OnUnitFineMesh h.line := by
  unfold Handle.line
  cases h.boundary
  · exact hh.2
  · exact hh.1

theorem line_values (h : Handle Float) : h.values.line = value h.line := by
  unfold line values
  cases h.boundary <;> rfl

section Comparisons

variable (hh : h.OnUnitFineMesh) (hk : k.OnUnitFineMesh)
include hh hk

theorem near_line_values : Near h.values.line k.values.line ↔ Near h.line k.line := by
  rw [line_values, line_values, hh.line.near_iff hk.line]

theorem collinear_values : h.values.Collinear k.values ↔ h.Collinear k :=
  and_congr_right' (near_line_values hh hk)

theorem coincides_values : h.values.Coincides k.values ↔ h.Coincides k :=
  and_congr_right' (Point.near_values hh hk)

end Comparisons

theorem connectAll_values (h : Handle Float) (hs : List (Handle Float)) :
    h.values.connectAll (hs.map values) = (h.connectAll hs).values := by
  unfold connectAll
  rw [List.flatMap_map]
  rfl

section Lists

variable (hhs : ∀ h ∈ hs, h.OnUnitFineMesh)
include hhs

theorem distinct_values : distinct (hs.map values) = (distinct hs).map values :=
  foldl_keepFirst_nil_map (R := Coincides) fun _ hh _ hk =>
    coincides_values (hhs _ hh) (hhs _ hk)

theorem lines_values (b : Orientation) : lines b (hs.map values) = (lines b hs).map value := by
  have hmap : ((hs.map values).filter (·.boundary = b)).map line =
      ((hs.filter (·.boundary = b)).map line).map value := by
    rw [List.filter_map, List.map_map, List.map_map]
    exact List.map_congr_left fun h _ => line_values h
  have hline : ∀ l ∈ (hs.filter (·.boundary = b)).map line, Binary64.OnUnitFineMesh l := by
    intro l hl
    obtain ⟨h, hh, rfl⟩ := List.mem_map.1 hl
    exact (hhs h (List.mem_filter.1 hh).1).line
  rw [lines_eq, lines_eq, hmap]
  exact foldl_keepFirst_nil_map (R := Near) fun _ hl _ hm =>
    (hline _ hl).near_iff (hline _ hm)

theorem lineIndex?_values (hh : h.OnUnitFineMesh) :
    lineIndex? b ((lines b hs).map value) h.values = lineIndex? b (lines b hs) h := by
  unfold lineIndex?
  refine if_congr Iff.rfl ?_ rfl
  rw [List.findIdx?_map]
  refine findIdx?_congr fun l hl => decide_eq_decide.2 ?_
  obtain ⟨k, hk, -, rfl⟩ := exists_of_mem_lines hl
  rw [line_values, (hhs k hk).line.near_iff hh.line]

theorem unified_values (hh : h.OnUnitFineMesh) :
    unified b (hs.map values) h.values = (unified b hs h).values := by
  unfold unified
  rw [lines_values hhs, lineIndex?_values hhs hh]
  cases lineIndex? b (lines b hs) h with
  | none => rfl
  | some i =>
    have hfilter : (hs.map values).filter
        (fun k => lineIndex? b ((lines b hs).map value) k = some i) =
          (hs.filter fun k => lineIndex? b (lines b hs) k = some i).map values := by
      rw [List.filter_map]
      refine congrArg _ (List.filter_congr fun k hk => ?_)
      rw [Function.comp_apply, lineIndex?_values hhs (hhs k hk)]
    simp only [hfilter, List.flatMap_map]
    rfl

end Lists

end Handle

namespace Layout

variable {s : Layout Float} {p : Panel Float}

theorem onUnitFineMesh_of_mem_handlesAt (hs : s.OnUnitMesh) (hp : p ∈ s.panels)
    {h : Handle Float} (hh : h ∈ s.handlesAt p) : h.OnUnitFineMesh := by
  obtain ⟨k, hk, rfl⟩ := List.mem_map.1 hh
  obtain ⟨n, hn, rfl⟩ := List.mem_map.1 hk
  exact (Rect.midpointBetween_values (hs p hp) (hs _ (mem_neighbours.1 hn).1) _).1

/-- The handles of one panel are exact. -/
theorem handlesAt_values (hs : s.OnUnitMesh) (hp : p ∈ s.panels) :
    s.values.handlesAt p.values = (s.handlesAt p).map Handle.values := by
  have hmiddle := fun n (hn : n ∈ s.neighbours p Orientation.all) (b : Orientation) =>
    Rect.midpointBetween_values (hs p hp) (hs n.panel (mem_neighbours.1 hn).1) b
  have hown : (s.values.neighbours p.values Orientation.all).map (Handle.between p.values) =
      ((s.neighbours p Orientation.all).map (Handle.between p)).map Handle.values := by
    rw [neighbours_values hs (hs p hp), List.map_map, List.map_map]
    refine List.map_congr_left fun n hn => ?_
    change (⟨_, p.rect.values.midpointBetween n.panel.rect.values n.boundary, _⟩ : Handle ℚ) = _
    rw [← (hmiddle n hn n.boundary).2]
    rfl
  have hfine : ∀ h ∈ (s.neighbours p Orientation.all).map (Handle.between p),
      h.OnUnitFineMesh := by
    intro h hh
    obtain ⟨n, hn, rfl⟩ := List.mem_map.1 hh
    exact (hmiddle n hn n.boundary).1
  unfold handlesAt
  rw [hown]
  dsimp only
  generalize (s.neighbours p Orientation.all).map (Handle.between p) = own at hfine
  rw [List.map_map, List.map_map]
  refine List.map_congr_left fun h hh => ?_
  rw [Function.comp_apply, Function.comp_apply, ← Handle.connectAll_values, List.filter_map]
  refine congrArg
    (fun ks : List (Handle Float) => h.values.connectAll (ks.map Handle.values)) ?_
  refine List.filter_congr fun k hk => decide_eq_decide.2 ?_
  exact and_congr (not_congr (Point.near_values (hfine k hk) (hfine h hh)))
    (Handle.collinear_values (hfine h hh) (hfine k hk))

/-- **Handles are exact.**  Their positions are finite, and the handles of the exact layout are the
handles with the numbers of these positions, in the same order and connected to the same panels. -/
theorem handles_values (hs : s.OnUnitMesh) (workspace : Orientation) :
    s.values.handles workspace = (s.handles workspace).map Handle.values ∧
      ∀ h ∈ s.handles workspace, h.OnUnitFineMesh := by
  have hfine : ∀ h ∈ s.panels.flatMap s.handlesAt, h.OnUnitFineMesh := by
    intro h hh
    obtain ⟨p, hp, hh⟩ := List.mem_flatMap.1 hh
    exact onUnitFineMesh_of_mem_handlesAt hs hp hh
  have hdistinct : ∀ h ∈ Handle.distinct (s.panels.flatMap s.handlesAt), h.OnUnitFineMesh :=
    fun h hh => hfine h (Handle.mem_of_mem_distinct hh)
  have hcollected : s.values.panels.flatMap s.values.handlesAt =
      (s.panels.flatMap s.handlesAt).map Handle.values := by
    rw [panels_values, List.flatMap_map, List.map_flatMap]
    exact List.flatMap_congr fun p hp => handlesAt_values hs hp
  unfold handles
  rw [hcollected, Handle.distinct_values hfine, Handle.unifyLines_eq, Handle.unifyLines_eq,
    List.map_map, List.map_map]
  constructor
  · exact List.map_congr_left fun h hh => Handle.unified_values hdistinct (hdistinct h hh)
  · intro h hh
    obtain ⟨k, hk, rfl⟩ := List.mem_map.1 hh
    unfold Handle.OnUnitFineMesh
    rw [Handle.position_unified]
    exact hdistinct k hk

end Layout

end Mosaic
