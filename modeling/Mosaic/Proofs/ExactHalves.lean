import Mosaic.Proofs.Enumeration
import Mosaic.Proofs.Split
import Mosaic.Proofs.Validation

/-!
# Exact halves

The numbers of a candidate are computed by one halving, one addition and one subtraction in each
direction.  On the mesh inside the workspace none of them rounds, so a candidate is what exact
arithmetic makes of it, and no two candidates are the same.

* `Span.OnUnitMesh`: finite multiples of the width of the mesh, within the workspace.
* `Rect.values_halfAt`: the halves of a rectangle are exact.
* `Rect.near_halfAt_iff`: only the halves of a rectangle as thin as the mesh are near each other.
* `Layout.candidates_enumerate`: the list of candidates, from its objections to its labels.
-/

namespace Mosaic

open Coordinate Binary64

/-! ### Halves of numbers on the mesh -/

namespace Binary64

variable {q r : ℚ}

/-- A double has room for numbers on the mesh and for the middles between them. -/
theorem representable_add_half (hq : OnMesh q) (hr : OnMesh r) (hle : |q + r / 2| ≤ 1) :
    Representable (q + r / 2) := by
  obtain ⟨k, rfl⟩ := hq
  obtain ⟨l, rfl⟩ := hr
  have heq : (k : ℚ) * mesh + l * mesh / 2 = ((2 * k + l : ℤ) : ℚ) * 2 ^ (-20 : ℤ) := by
    rw [show mesh = 2 * 2 ^ (-20 : ℤ) by norm_num [mesh]]
    push_cast
    ring
  rw [heq] at hle ⊢
  exact representable_of_abs_lt (hle.trans_lt (by norm_num)) (by decide) (by decide)

/-- A multiple of the width of the mesh is zero, or far from it. -/
theorem eq_zero_or_mesh_le (h : OnMesh q) : q = 0 ∨ mesh ≤ |q| := by
  obtain ⟨k, rfl⟩ := h
  rcases eq_or_ne k 0 with rfl | hk
  · exact Or.inl (by rw [Int.cast_zero, zero_mul])
  · refine Or.inr ?_
    have hone : (1 : ℚ) ≤ |(k : ℚ)| := by exact_mod_cast Int.one_le_abs hk
    rw [abs_mul, abs_of_pos mesh_pos]
    exact le_mul_of_one_le_left mesh_pos.le hone

/-- The width of the mesh is not among the smallest doubles. -/
theorem two_pow_le_mesh : (2 : ℚ) ^ (-1021 : ℤ) ≤ mesh := by
  rw [show mesh = 2 ^ (-19 : ℤ) by norm_num [mesh]]
  exact zpow_le_zpow_right₀ (by norm_num) (by norm_num)

/-- The tolerance lies between half the width of the mesh and the whole width. -/
theorem abs_half_le_toleranceValue_iff (h : OnMesh q) : |q| / 2 ≤ toleranceValue ↔ |q| ≤ mesh := by
  have hhalf : mesh / 2 ≤ toleranceValue := by norm_num [mesh, toleranceValue]
  have hwhole : toleranceValue < mesh := by norm_num [mesh, toleranceValue]
  obtain ⟨k, rfl⟩ := h
  rw [abs_mul, abs_of_pos mesh_pos, ← Int.cast_abs]
  constructor
  · intro hle
    have hlt : ((|k| : ℤ) : ℚ) < 2 := by
      refine lt_of_mul_lt_mul_right ?_ mesh_pos.le
      linarith
    have hone : |k| ≤ 1 := Int.lt_add_one_iff.1 (by exact_mod_cast hlt)
    exact mul_le_of_le_one_left mesh_pos.le (by exact_mod_cast hone)
  · intro hle
    linarith

/-- A finite double is near itself. -/
theorem near_self {a : Float} (h : Represents a q) : Near a a :=
  ⟨sub_le_tolerance h h le_rfl, sub_le_tolerance h h le_rfl⟩

end Binary64

/-! ### Spans -/

namespace Span

/-- Start and extent are finite and on the mesh, and start and stop lie in the workspace. -/
structure OnUnitMesh (s : Span Float) : Prop where
  start : Represents s.start s.values.start
  extent : Represents s.extent s.values.extent
  onMesh : s.values.OnMesh
  start_mem : 0 ≤ s.values.start ∧ s.values.start ≤ 1
  stop_mem : 0 ≤ s.values.stop ∧ s.values.stop ≤ 1

instance (s : Span Float) : Decidable s.OnUnitMesh :=
  decidable_of_iff
    ((Represents s.start s.values.start ∧ Represents s.extent s.values.extent) ∧
      (Mosaic.OnMesh s.values.start ∧ Mosaic.OnMesh s.values.extent) ∧
        (0 ≤ s.values.start ∧ s.values.start ≤ 1) ∧ 0 ≤ s.values.stop ∧ s.values.stop ≤ 1)
    ⟨fun ⟨⟨hstart, hextent⟩, hmesh, hmem⟩ => ⟨hstart, hextent, hmesh, hmem.1, hmem.2⟩,
      fun h => ⟨⟨h.start, h.extent⟩, h.onMesh, h.start_mem, h.stop_mem⟩⟩

namespace OnUnitMesh

variable {s : Span Float}

/-- The numbers are given. -/
theorem of_represents {a b : Float} {q r : ℚ} (ha : Represents a q) (hb : Represents b r)
    (hmesh : Span.OnMesh ⟨q, r⟩) (hq : 0 ≤ q ∧ q ≤ 1) (hstop : 0 ≤ q + r ∧ q + r ≤ 1) :
    OnUnitMesh ⟨a, b⟩ := by
  have hvalues : values ⟨a, b⟩ = ⟨q, r⟩ := by
    unfold values
    rw [ha.value_eq, hb.value_eq]
  exact ⟨hvalues ▸ ha, hvalues ▸ hb, hvalues ▸ hmesh, hvalues ▸ hq, hvalues ▸ hstop⟩

theorem abs_extent_le (h : s.OnUnitMesh) : |s.values.extent| ≤ 1 := by
  have hstart := h.start_mem
  have hstop := h.stop_mem
  rw [stop_eq] at hstop
  exact abs_le.2 ⟨by linarith, by linarith⟩

theorem representable_half (h : s.OnUnitMesh) : Representable (s.values.extent / 2) := by
  have hle : |s.values.extent / 2| ≤ 1 := by
    rw [abs_div, abs_two]
    linarith [h.abs_extent_le]
  have hhalf := representable_add_half OnMesh.zero h.onMesh.2 (by rwa [zero_add])
  rwa [zero_add] at hhalf

theorem represents_half (h : s.OnUnitMesh) : Represents (half s.extent) (s.values.extent / 2) :=
  Binary64.represents_half h.extent
    ((eq_zero_or_mesh_le h.onMesh.2).imp_right two_pow_le_mesh.trans)

theorem represents_middle (h : s.OnUnitMesh) :
    Represents (s.start + half s.extent) (s.values.start + s.values.extent / 2) := by
  have hstart := h.start_mem
  have hstop := h.stop_mem
  rw [stop_eq] at hstop
  refine (rounds_add h.start h.represents_half).denotes ?_
  exact representable_add_half h.onMesh.1 h.onMesh.2 (abs_le.2 ⟨by linarith, by linarith⟩)

theorem represents_rest (h : s.OnUnitMesh) :
    Represents (s.extent - half s.extent) (s.values.extent / 2) := by
  have hrest := rounds_sub h.extent h.represents_half
  rw [sub_half] at hrest
  exact hrest.denotes h.representable_half

/-- The halves of a span are exact. -/
theorem values_halves (h : s.OnUnitMesh) :
    s.halves.1.values = s.values.halves.1 ∧ s.halves.2.values = s.values.halves.2 := by
  unfold halves values
  simp only [half_eq_div_two, h.represents_half.value_eq, h.represents_middle.value_eq,
    h.represents_rest.value_eq]
  exact ⟨rfl, congrArg _ (sub_half _).symm⟩

/-- The halves of a span are near each other only if the span is no wider than the mesh. -/
theorem near_halves_iff (h : s.OnUnitMesh) :
    Near s.halves.1.start s.halves.2.start ∧ Near s.halves.1.extent s.halves.2.extent ↔
      |s.values.extent| ≤ mesh := by
  have hleft := rounds_sub h.start h.represents_middle
  have hright := rounds_sub h.represents_middle h.start
  rw [sub_add_cancel_left] at hleft
  rw [add_sub_cancel_left] at hright
  have hextent : Near s.halves.1.extent s.halves.2.extent :=
    ⟨sub_le_tolerance h.represents_half h.represents_rest le_rfl,
      sub_le_tolerance h.represents_rest h.represents_half le_rfl⟩
  have habs : |s.values.extent| / 2 = |s.values.extent / 2| := by rw [abs_div, abs_two]
  rw [and_iff_left hextent, ← abs_half_le_toleranceValue_iff h.onMesh.2, habs, abs_le', and_comm]
  exact and_congr
    (le_iff_of_represents (hleft.denotes h.representable_half.neg) represents_tolerance)
    (le_iff_of_represents (hright.denotes h.representable_half) represents_tolerance)

end OnUnitMesh

end Span

/-! ### Rectangles -/

namespace Rect

/-- The half on one side of the cut is the one that is kept when the other one is created. -/
theorem halved_halfAt (r : Rect ℚ) (cut : Orientation) (side : Side) :
    r.Halved cut side.flip (r.halfAt cut side) (r.halfAt cut side.flip) := by
  have h := r.halved_split cut
  cases side with
  | before => exact h
  | after => exact h.symm

section Flat

variable (r : Rect ℚ) (hflat : ∀ o, (r.along o).extent ≠ 0)
include hflat

/-- No half of a rectangle that is not flat is the whole rectangle ... -/
theorem halfAt_ne (cut : Orientation) (side : Side) : r.halfAt cut side ≠ r := by
  intro heq
  have hextent := (r.halved_halfAt cut side).kept_extent
  rw [heq] at hextent
  exact hflat cut.flip (by linarith)

/-- ... and no two of its halves are the same. -/
theorem halfAt_inj {cut cut' : Orientation} {side side' : Side}
    (heq : r.halfAt cut side = r.halfAt cut' side') : cut = cut' ∧ side = side' := by
  have hhalved := r.halved_halfAt cut side
  rcases cut.eq_or_eq_flip cut' with rfl | rfl
  · refine ⟨rfl, ?_⟩
    by_contra hne
    -- the half would begin and end on the cut
    obtain rfl : side' = side.flip := by cases side <;> cases side' <;> simp_all
    have hinner := hhalved.inner_edge
    rw [← heq] at hinner
    have hextent := hhalved.kept_extent
    have hstop := Span.stop_eq ((r.halfAt cut' side).along cut'.flip)
    have hends : ((r.halfAt cut' side).along cut'.flip).stop =
        ((r.halfAt cut' side).along cut'.flip).start := by
      cases side
      · exact hinner.symm
      · exact hinner
    exact hflat cut'.flip (by linarith)
  · -- along the other cut the half is as long as the rectangle
    have hextent := (r.halved_halfAt cut.flip side').kept_extent
    rw [← heq, Orientation.flip_flip, hhalved.kept_along] at hextent
    exact absurd (by linarith) (hflat cut)

end Flat

variable {r : Rect Float}

theorem values_ofSpans (o : Orientation) (s t : Span Float) :
    (ofSpans o s t).values = ofSpans o s.values t.values := by
  cases o <;> rfl

/-- **The halves of a rectangle are exact.** -/
theorem values_halfAt (h : ∀ o, (r.along o).OnUnitMesh) (cut : Orientation) (side : Side) :
    (r.halfAt cut side).values = r.values.halfAt cut side := by
  obtain ⟨hfirst, hsecond⟩ := (h cut.flip).values_halves
  cases side with
  | before =>
    change (ofSpans cut (r.along cut) (r.along cut.flip).halves.1).values =
      ofSpans cut (r.values.along cut) (r.values.along cut.flip).halves.1
    rw [values_ofSpans, hfirst, along_values, along_values]
  | after =>
    change (ofSpans cut (r.along cut) (r.along cut.flip).halves.2).values =
      ofSpans cut (r.values.along cut) (r.values.along cut.flip).halves.2
    rw [values_ofSpans, hsecond, along_values, along_values]

theorem near_iff_along {α : Type} [Coordinate α] {r s : Rect α} (cut : Orientation) : r.Near s ↔
    (Coordinate.Near (r.along cut).start (s.along cut).start ∧
        Coordinate.Near (r.along cut).extent (s.along cut).extent) ∧
      Coordinate.Near (r.along cut.flip).start (s.along cut.flip).start ∧
        Coordinate.Near (r.along cut.flip).extent (s.along cut.flip).extent := by
  unfold Near
  cases cut <;> simp only [along, Orientation.flip] <;> tauto

/-- **The halves are near each other only if the rectangle is no wider than the mesh.** -/
theorem near_halfAt_iff (h : ∀ o, (r.along o).OnUnitMesh) (cut : Orientation) :
    (r.halfAt cut .before).Near (r.halfAt cut .after) ↔
      |(r.values.along cut.flip).extent| ≤ mesh := by
  rw [near_iff_along cut, along_values, ← (h cut.flip).near_halves_iff]
  simp only [along_halfAt, along_flip_halfAt_before, along_flip_halfAt_after]
  exact and_iff_right ⟨near_self (h cut).start, near_self (h cut).extent⟩

end Rect

/-! ### Layouts -/

namespace Layout

variable {s : Layout Float} {v w : Halving Float}

/-- All coordinates are finite and on the mesh, and all panels lie in the workspace. -/
def OnUnitMesh (s : Layout Float) : Prop :=
  ∀ p ∈ s.panels, ∀ o, (p.rect.along o).OnUnitMesh

instance (s : Layout Float) : Decidable s.OnUnitMesh :=
  inferInstanceAs (Decidable (∀ p ∈ s.panels, _))

theorem find?_values (s : Layout Float) (id : PanelId) :
    s.values.find? id = (s.find? id).map Rect.values := by
  unfold find? values
  rw [List.find?_map, Option.map_map, Option.map_map]
  rfl

/-- A split computed in double precision is the exact one. -/
theorem Split.values {t : Layout Float} {p : Panel Float} {cut : Orientation}
    {kept created : Rect Float} {id : PanelId} (h : s.Split t p cut kept created id)
    (hmesh : s.OnUnitMesh) :
    s.values.Split t.values p.values cut kept.values created.values id := by
  have hids : s.values.ids = s.ids := List.map_map
  have herase : (s.values.erase p.id).panels = (s.erase p.id).panels.map Panel.values :=
    List.filter_map
  have hfirst := Rect.values_halfAt (hmesh p h.mem) cut .before
  have hsecond := Rect.values_halfAt (hmesh p h.mem) cut .after
  refine ⟨h.orientation, List.mem_map_of_mem h.mem, hids ▸ h.fresh, ?_, ?_⟩
  · refine h.halves.imp (fun heq => ?_) fun heq => ?_
    · exact Prod.ext (hfirst.symm.trans (congrArg (·.1.values) heq))
        (hsecond.symm.trans (congrArg (·.2.values) heq))
    · exact Prod.ext (hfirst.symm.trans (congrArg (·.1.values) heq))
        (hsecond.symm.trans (congrArg (·.2.values) heq))
  · change (t.panels.map Panel.values).Perm
      (⟨p.id, kept.values⟩ :: ⟨id, created.values⟩ :: (s.values.erase p.id).panels)
    rw [herase]
    exact h.perm.map Panel.values

/-- Different halvings lead to different numbers. -/
theorem values_halve_inj (hpending : .pending ∉ s.ids) (hmesh : s.OnUnitMesh)
    (hflat : ∀ p ∈ s.values.panels, ∀ o, (p.rect.along o).extent ≠ 0)
    (hv : v.panel ∈ s.panels) (hw : w.panel ∈ s.panels)
    (heq : (s.halve v).values = (s.halve w).values) : v = w := by
  have hfind : ∀ id, ((s.halve v).find? id).map Rect.values =
      ((s.halve w).find? id).map Rect.values := by
    intro id
    rw [← find?_values, ← find?_values, heq]
  have hkept := congrArg (Option.map Rect.values) (halvedBy_halve hpending hv).kept
  rw [hfind, Option.map_some, Halving.keptHalf, Rect.values_halfAt (hmesh _ hv)] at hkept
  have hflatv := forall_values.1 hflat v.panel hv
  -- only the panel that is cut is not what it was
  have hpanel : w.panel = v.panel := by
    by_contra hne
    have hid : v.panel.id ≠ w.panel.id := fun hid => hne (eq_of_id_eq hw hv hid.symm)
    have hother := (halvedBy_halve hpending hw).others v.panel.id
      (fun h => hpending (h ▸ mem_ids_of_mem hv)) hid
    rw [hother, mem_panels_iff.1 hv, Option.map_some, Option.some.injEq] at hkept
    exact Rect.halfAt_ne _ hflatv _ _ hkept.symm
  rw [← hpanel, (halvedBy_halve hpending hw).kept, Option.map_some, Option.some.injEq,
    Halving.keptHalf, Rect.values_halfAt (hmesh _ hw)] at hkept
  obtain ⟨hcut, hside⟩ := Rect.halfAt_inj _ (hpanel ▸ hflatv) hkept
  obtain ⟨p, cut, side⟩ := v
  obtain ⟨q, cut', side'⟩ := w
  simp_all

/-- **The list of candidates.**  There is none exactly if there is an objection.  Otherwise the list
runs through the halvings that the layout offers, in ascending order, or it is empty if the layout
is full or empty; every candidate is the layout with one panel halved, and so it is with any label
for the pending half.  On the mesh in the workspace the halves are exact, the panel keeps the
second half just if it is wider than the mesh, candidates of a tiling are tilings, and if no panel
is flat all candidates are different. -/
theorem candidates_enumerate (s : Layout Float) (limits : Limits) :
    (∀ e, s.candidates limits = .error e ↔ s.Objection limits e) ∧
      ∀ cs, s.candidates limits = .ok cs →
        (s.size = limits.capacity ∨ s.panels = [] → cs = []) ∧
        ∃ ways : List (Halving Float), cs = ways.map s.halve ∧ ways.Pairwise Halving.Precedes ∧
          (∀ w, w ∈ ways ↔ s.Offers limits w) ∧
          (∀ w ∈ ways, s.HalvedBy w (s.halve w)) ∧
          (s.OnUnitMesh →
            (∀ w ∈ ways, w.panel.rect.values.Halved w.cut w.kept.flip w.keptHalf.values
              w.createdHalf.values) ∧
            (∀ p cut, ⟨p, cut, .after⟩ ∈ ways ↔
              ⟨p, cut, .before⟩ ∈ ways ∧ mesh < |(p.rect.values.along cut.flip).extent|) ∧
            (s.values.Tiles → ∀ c ∈ cs, c.values.Tiles) ∧
            ((∀ p ∈ s.values.panels, ∀ o, (p.rect.along o).extent ≠ 0) →
              (cs.map values).Nodup)) := by
  refine ⟨fun e => candidates_eq_error_iff, fun cs hcs => ?_⟩
  have hpending := (candidates_eq_ok_iff.1 hcs).2.1
  have hpanel : ∀ w ∈ s.offers limits, w.panel ∈ s.panels := fun w hw => (mem_offers.1 hw).2.1
  have hlist := candidates_eq_map_offers hcs
  refine ⟨fun hnone => ?_, s.offers limits, hlist, s.pairwise_offers limits, fun w => mem_offers,
    fun w hw => halvedBy_halve hpending (hpanel w hw), fun hmesh => ⟨?_, ?_, ?_, ?_⟩⟩
  · rw [hlist, List.map_eq_nil_iff, List.eq_nil_iff_forall_not_mem]
    intro w hw
    rcases hnone with hfull | hempty
    · exact (mem_offers.1 hw).1 hfull
    · exact List.not_mem_nil (hempty ▸ hpanel w hw)
  · intro w hw
    unfold Halving.keptHalf Halving.createdHalf
    rw [Rect.values_halfAt (hmesh _ (hpanel w hw)), Rect.values_halfAt (hmesh _ (hpanel w hw))]
    exact Rect.halved_halfAt _ _ _
  · intro p cut
    rw [mem_offers, mem_offers]
    constructor
    · rintro ⟨hfull, hp, hadmits, hfar⟩
      have hwide := hfar rfl
      rw [Rect.near_halfAt_iff (hmesh p hp), not_le] at hwide
      exact ⟨⟨hfull, hp, hadmits, nofun⟩, hwide⟩
    · rintro ⟨⟨hfull, hp, hadmits, -⟩, hwide⟩
      rw [← not_le, ← Rect.near_halfAt_iff (hmesh p hp)] at hwide
      exact ⟨hfull, hp, hadmits, fun _ => hwide⟩
  · intro htiles c hc
    obtain ⟨p, cut, kept, created, hsplit, -⟩ := exists_split_of_mem_candidates hcs hc
    rw [tiles_iff_perfect] at htiles ⊢
    exact (hsplit.values hmesh).perfect htiles
  · intro hflat
    have hnodup : (s.offers limits).Nodup := (s.pairwise_offers limits).imp Halving.Precedes.ne
    rw [hlist, List.map_map]
    refine hnodup.map_on fun v hv w hw heq => ?_
    exact values_halve_inj hpending hmesh hflat (hpanel v hv) (hpanel w hw) heq

theorem candidates_enumerate_twoColumns :
    ∃ cs, twoColumns.candidates ⟨3, 3⟩ = .ok cs ∧ cs ≠ [] ∧ twoColumns.OnUnitMesh ∧
      (∀ p ∈ twoColumns.values.panels, ∀ o, (p.rect.along o).extent ≠ 0) ∧
      (cs.map values).Nodup := by
  obtain ⟨cs, hcs⟩ : ∃ cs, twoColumns.candidates ⟨3, 3⟩ = .ok cs :=
    exists_candidates (by decide) (by decide +kernel) (by decide +kernel)
  have honMesh : Mosaic.OnMesh (1 / 2) := OnMesh.iff_den_eq_one.2 (by decide +kernel)
  have hmesh : twoColumns.OnUnitMesh := by
    have hleft : Span.OnUnitMesh ⟨0, 0.5⟩ := .of_represents represents_zero represents_one_half
      ⟨.zero, honMesh⟩ (by norm_num) (by norm_num)
    have hright : Span.OnUnitMesh ⟨0.5, 0.5⟩ := .of_represents represents_one_half
      represents_one_half ⟨honMesh, honMesh⟩ (by norm_num) (by norm_num)
    have hheight : Span.OnUnitMesh ⟨0, 1⟩ := .of_represents represents_zero represents_one
      ⟨.zero, .one⟩ (by norm_num) (by norm_num)
    intro p hp o
    rcases List.mem_cons.1 hp with rfl | hp
    · cases o
      · exact hleft
      · exact hheight
    · obtain rfl := List.mem_singleton.1 hp
      cases o
      · exact hright
      · exact hheight
  have hflat : ∀ p ∈ twoColumns.values.panels, ∀ o, (p.rect.along o).extent ≠ 0 := by
    have hhalf : value 0.5 ≠ 0 := by rw [represents_one_half.value_eq]; norm_num
    have hone : value 1 ≠ 0 := by rw [represents_one.value_eq]; norm_num
    rw [forall_values]
    intro p hp o
    rcases List.mem_cons.1 hp with rfl | hp
    · cases o
      · exact hhalf
      · exact hone
    · obtain rfl := List.mem_singleton.1 hp
      cases o
      · exact hhalf
      · exact hone
  obtain ⟨-, ways, hways, -, hoffers, -, hexact⟩ :=
    (candidates_enumerate twoColumns ⟨3, 3⟩).2 cs hcs
  have hoffer : ⟨⟨⟨1⟩, ⟨0, 0, 0.5, 1⟩⟩, .vertical, .before⟩ ∈ ways :=
    (hoffers _).2 ⟨by decide +kernel, by decide +kernel,
      (occupancy_le_size _ _ _).trans_lt (by decide +kernel), nofun⟩
  refine ⟨cs, hcs, ?_, hmesh, hflat, (hexact hmesh).2.2.2 hflat⟩
  rintro rfl
  exact List.ne_nil_of_mem hoffer (List.map_eq_nil_iff.1 hways.symm)

end Layout

end Mosaic
