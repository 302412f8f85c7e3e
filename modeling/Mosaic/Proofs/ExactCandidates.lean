import Mosaic.Proofs.ExactNeighbours

/-!
# Exact candidates

Which cuts a panel admits depends on counts of panels and lines, and these on comparisons of edges.
On the mesh in the workspace all of them are exact, and so are the halves.  So the candidates of a
layout in double precision are, number by number, the candidates of exact arithmetic, in the same
order and with the same objections.

* `Layout.bandCount_values`, `Layout.occupancy_values`: counts.
* `Layout.candidates_values`: candidates.
* `Layout.Successor.values`: what follows a layout.
-/

namespace Mosaic

open Coordinate Binary64

/-! ### Counts -/

section InBand

variable {r q : Rect Float} (hr : ∀ o, (r.along o).OnUnitMesh) (hq : ∀ o, (q.along o).OnUnitMesh)
include hr hq

theorem Rect.inBand_values (line : Orientation) :
    r.values.InBand q.values line ↔ r.InBand q line := by
  obtain ⟨hstart, hstop⟩ := (hr line.flip).ends
  obtain ⟨hstart', -⟩ := (hq line.flip).ends
  have hbegins := hstart.near_iff hstart'
  have hbelow := hstart'.atMost_iff hstop
  have habove := hstart.atMost_iff hstart'
  rw [(hr line.flip).value_stop] at hbelow
  unfold InBand
  rw [near_start_stop_values hr hq, near_stop_start_values hr hq, along_values, along_values]
  exact or_congr hbegins.symm (and_congr_right' (or_congr hbelow.symm habove.symm))

end InBand

namespace Layout

variable {s : Layout Float} {p : Panel Float} {limits : Limits}

theorem size_values (s : Layout Float) : s.values.size = s.size :=
  List.length_map _

/-- **The panels of a band are exact.** -/
theorem bandCount_values (hs : s.OnUnitMesh) (hp : ∀ o, (p.rect.along o).OnUnitMesh)
    (line : Orientation) : s.values.bandCount line p.values = s.bandCount line p := by
  unfold bandCount
  rw [panels_values, List.countP_map]
  refine List.countP_congr fun q hq => ?_
  rw [Function.comp_apply, decide_eq_true_eq, decide_eq_true_eq]
  exact Rect.inBand_values (hs q hq) hp line

/-- **The occupancy is exact.** -/
theorem occupancy_values (hs : s.OnUnitMesh) (hp : ∀ o, (p.rect.along o).OnUnitMesh)
    (line : Orientation) : s.values.occupancy line p.values = s.occupancy line p := by
  unfold occupancy
  rw [bandCount_values hs hp, crossings_values hs (hp line.flip)]
  rfl

theorem admits_values (hs : s.OnUnitMesh) (hp : ∀ o, (p.rect.along o).OnUnitMesh)
    {cut : Orientation} : s.values.Admits limits p.values cut ↔ s.Admits limits p cut := by
  unfold Admits
  rw [occupancy_values hs hp]

end Layout

/-! ### Halves -/

/-- Whether the halves of a rectangle are near each other is exact. -/
theorem Rect.near_halfAt_values {r : Rect Float} (h : ∀ o, (r.along o).OnUnitMesh)
    (cut : Orientation) :
    (r.values.halfAt cut .before).Near (r.values.halfAt cut .after) ↔
      (r.halfAt cut .before).Near (r.halfAt cut .after) := by
  have hspan := h cut.flip
  have hstart := hspan.onMesh.1.onFineMesh
  have hextent := hspan.onMesh.2.onFineMesh_half
  have hle := abs_le.1 hspan.abs_extent_le
  rw [half_eq_div_two] at hextent
  have hmiddle : Coordinate.Near (r.along cut.flip).values.halves.1.start
      (r.along cut.flip).values.halves.2.start ↔
        Coordinate.Near (r.along cut.flip).halves.1.start
          (r.along cut.flip).halves.2.start := by
    have hfine := near_iff_of_onFineMesh hspan.start hspan.represents_middle hstart
      (hstart.add hextent) (abs_le.2 ⟨by linarith, by linarith⟩)
    unfold Span.halves
    rw [half_eq_div_two]
    exact hfine.symm
  have hextents : Coordinate.Near (r.along cut.flip).values.halves.1.extent
      (r.along cut.flip).values.halves.2.extent ↔
        Coordinate.Near (r.along cut.flip).halves.1.extent
          (r.along cut.flip).halves.2.extent := by
    have hfine := near_iff_of_onFineMesh hspan.represents_half hspan.represents_rest hextent hextent
      (by rw [sub_self, abs_zero]; exact zero_le_two)
    unfold Span.halves
    rw [half_eq_div_two, sub_half]
    exact hfine.symm
  rw [near_iff_along cut, near_iff_along cut]
  simp only [along_halfAt, along_flip_halfAt_before, along_flip_halfAt_after, along_values]
  refine and_congr (iff_of_true ⟨near_refl _, near_refl _⟩ ?_) (and_congr hmiddle hextents)
  exact ⟨near_self (h cut).start, near_self (h cut).extent⟩

/-- The halving of the panel with the numbers of its rectangle. -/
def Halving.values (w : Halving Float) : Halving ℚ :=
  ⟨w.panel.values, w.cut, w.kept⟩

theorem Panel.halvings_values {p : Panel Float} (hp : ∀ o, (p.rect.along o).OnUnitMesh)
    (cut : Orientation) : p.values.halvings cut = (p.halvings cut).map Halving.values := by
  unfold halvings
  rw [List.map_cons, apply_ite (List.map Halving.values)]
  exact congrArg _ (if_congr (Rect.near_halfAt_values hp cut) rfl rfl)

/-! ### Edits -/

namespace Layout

variable {s t c : Layout Float} {p : Panel Float} {w : Halving Float} {limits : Limits}
  {id : PanelId}

theorem contains_values (s : Layout Float) (id : PanelId) :
    s.values.contains id = s.contains id := by
  unfold contains
  rw [find?_values, Option.isSome_map]

theorem values_put (s : Layout Float) (p : Panel Float) :
    (s.put p).values = s.values.put p.values := by
  refine ext_find? rfl fun id => ?_
  rw [find?_values, find?_put, find?_put, find?_values]
  exact apply_ite _ _ _ _

theorem values_putAll (s : Layout Float) (ps : List (Panel Float)) :
    (s.putAll ps).values = s.values.putAll (ps.map Panel.values) := by
  unfold putAll
  induction ps generalizing s with
  | nil => rfl
  | cons p ps ih => rw [List.foldl_cons, ih, values_put, List.map_cons, List.foldl_cons]

theorem values_erase (s : Layout Float) (id : PanelId) :
    (s.erase id).values = s.values.erase id := by
  refine ext_panels rfl ?_
  change (s.panels.filter _).map _ = (s.panels.map _).filter _
  rw [List.filter_map]
  rfl

/-- The pending panel gets its label whatever its numbers are. -/
theorem commit_values (s : Layout Float) (id : PanelId) :
    s.values.commit id = (s.commit id).map values := by
  unfold commit pending?
  rw [contains_values, find?_values]
  split_ifs
  · rfl
  · rfl
  · cases s.find? .pending with
    | none => rfl
    | some r =>
      refine congrArg Except.ok ?_
      rw [values_put, values_erase]
      rfl

/-- The layout with one panel halved is exact. -/
theorem values_halve (s : Layout Float) (hw : ∀ o, (w.panel.rect.along o).OnUnitMesh) :
    (s.halve w).values = s.values.halve w.values := by
  unfold halve withHalves
  rw [values_putAll]
  change s.values.putAll [⟨w.panel.id, w.keptHalf.values⟩, ⟨.pending, w.createdHalf.values⟩] = _
  unfold Halving.keptHalf Halving.createdHalf
  rw [Rect.values_halfAt hw, Rect.values_halfAt hw]
  rfl

/-! ### Candidates -/

theorem candidatesAt_values (hs : s.OnUnitMesh) (hp : p ∈ s.panels) :
    s.values.candidatesAt limits p.values = (s.candidatesAt limits p).map values := by
  have hhalvings : s.values.halvings p.values = fun cut => (s.halvings p cut).map values := by
    funext cut
    rw [← map_halve_halvings, ← map_halve_halvings, Panel.halvings_values (hs p hp), List.map_map,
      List.map_map]
    refine List.map_congr_left fun w hw => ?_
    have hpanel : w.panel = p := (Panel.mem_halvings.1 hw).1
    exact (values_halve s (hpanel ▸ hs p hp)).symm
  unfold candidatesAt
  rw [List.map_flatMap]
  simp only [hhalvings, admits_values hs (hs p hp)]

/-- **Candidates are exact.**  The candidates of the exact layout are, in order, the exact
candidates, and there is the same objection if there are none. -/
theorem candidates_values (hs : s.OnUnitMesh) (limits : Limits) :
    s.values.candidates limits = (s.candidates limits).map (·.map values) := by
  unfold candidates
  rw [contains_values, size_values]
  split_ifs
  · rfl
  · rfl
  · rfl
  · refine congrArg Except.ok ?_
    dsimp only
    rw [panels_values, List.flatMap_map, List.map_flatMap]
    exact List.flatMap_congr fun p hp => candidatesAt_values hs hp
  · rfl

/-- **What follows a layout follows it exactly.** -/
theorem Successor.values (h : s.Successor limits id t) (hs : s.OnUnitMesh) :
    s.values.Successor limits id t.values := by
  obtain ⟨cs, hcs, c, hc, ht⟩ := h
  refine ⟨cs.map Layout.values, ?_, c.values, List.mem_map_of_mem hc, ?_⟩
  · rw [candidates_values hs, hcs]
    rfl
  · rw [commit_values, ht]
    rfl

end Layout

end Mosaic
