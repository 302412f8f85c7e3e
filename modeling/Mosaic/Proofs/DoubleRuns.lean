import Mosaic.Proofs.Bands
import Mosaic.Proofs.ContactHandles
import Mosaic.Proofs.CutCounts
import Mosaic.Proofs.ExactRemovals
import Mosaic.Proofs.Extents

/-!
# Runs in double precision

As long as a run in double precision stays on the mesh in the workspace, each of its steps is exact,
and so its layouts are, number by number, those of a run of exact arithmetic.  What holds of exact
runs therefore holds of runs in double precision.  A run of splits alone stays on the mesh by itself
as long as no panel is thinner than the mesh is wide, since its spans are aligned.

* `Layout.values_run`: runs of splits and removals.
* `Layout.Thick`: no panel is thinner than the mesh is wide, as doubles compare.
* `SplitOnly.onUnitMesh`, `SplitOnly.values`: runs of splits alone.
* `Layout.remove_splitOnly`: every panel of a layout made by splits alone can be removed.
* `Layout.closed_of_splitOnly`: its handles move every panel that has to move.
* `Layout.extent_of_run`: the least extent within limits of at most twenty columns and rows.
-/

namespace Mosaic

open Coordinate Binary64 Relation

/-! ### Runs of splits and removals -/

namespace Layout

variable {s t : Layout Float} {p q : Panel Float} {id : PanelId} {b : Orientation} {side : Side}

/-- A step to a layout on the mesh in the workspace. -/
def EditOnUnitMesh (s t : Layout Float) : Prop :=
  s.Edit t ∧ t.OnUnitMesh

theorem upright_of_emptyOrPerfect (h : s.values.EmptyOrPerfect) : s.Upright := by
  intro p hp o
  have hmem : p.values ∈ s.values.panels := List.mem_map_of_mem hp
  have hpos : 0 < (p.rect.values.along o).extent := (h.perfect hmem).positive p.values hmem o
  rw [Rect.along_values] at hpos
  exact hpos.le

/-- A step is exact. -/
theorem Edit.values (h : s.Edit t) (hs : s.OnUnitMesh) (hpos : s.Upright) :
    s.values.Edit t.values := by
  cases h with
  | split ht => exact .split (ht.values hs)
  | @removal id _ ht =>
    have hremove := remove_values hs hpos id
    rw [ht] at hremove
    exact .removal hremove
  | @refusal id _ he =>
    have hremove := remove_values hs hpos id
    rw [he] at hremove
    exact .refusal hremove

theorem values_initial (c : Config) (id : PanelId) :
    (c.initial id : Layout Float).values = c.initial id :=
  values_single id c.orientation

theorem onUnitMesh_single (id : PanelId) (o : Orientation) :
    (single id o : Layout Float).OnUnitMesh := by
  have hunit : ∀ o, ((Rect.unit : Rect Float).along o).OnUnitMesh := by
    intro o
    have hspan : Span.OnUnitMesh ⟨0, 1⟩ := .of_represents represents_zero represents_one
      ⟨.zero, .one⟩ (by norm_num) (by norm_num)
    cases o <;> exact hspan
  intro p hp
  rw [mem_panels_single.1 hp]
  exact hunit

/-- **A run on the mesh is exact.** -/
theorem values_run {c : Config} (h : ReflTransGen EditOnUnitMesh (c.initial id) s) :
    s.OnUnitMesh ∧ ReflTransGen EditOnMesh (c.initial id) s.values := by
  induction h with
  | refl =>
    rw [values_initial]
    exact ⟨onUnitMesh_single id c.orientation, .refl⟩
  | @tail s t _ hstep ih =>
    obtain ⟨hs, hrun⟩ := ih
    have hedit := hstep.1.values hs (upright_of_emptyOrPerfect (emptyOrPerfect_of_run hrun).1)
    exact ⟨hstep.2, hrun.tail ⟨hedit, hstep.2.onMesh_values⟩⟩

/-- On every run a contact has a handle if and only if one panel lies within the extent of the
other. -/
theorem exists_mem_handles_iff_of_run {c : Config}
    (h : ReflTransGen EditOnUnitMesh (c.initial id) s)
    (hc : s.values.Contact p.values q.values b side) (workspace : Orientation) :
    (∃ h ∈ s.handles workspace,
        s.values.HandleBetween workspace p.values q.values b side h.values) ↔
      (p.rect.values.along b).Includes (q.rect.values.along b) ∨
        (q.rect.values.along b).Includes (p.rect.values.along b) := by
  obtain ⟨hs, hrun⟩ := values_run h
  obtain ⟨hperfect, hm⟩ := emptyOrPerfect_of_run hrun
  refine Iff.trans ?_ ((hperfect.perfect hc.left).exists_handle_iff hm hc workspace)
  constructor
  · rintro ⟨h, -, hbetween⟩
    exact ⟨h.values, hbetween⟩
  · rintro ⟨h, hbetween⟩
    obtain ⟨k, hk, rfl⟩ := List.mem_map.1 ((handles_values hs workspace).1 ▸ hbetween.1)
    exact ⟨k, hk, hbetween⟩

/-- The count of a band is off by the panels that stray. -/
theorem bandCount_eq_add_strays_values (h : s.values.Tiles) (hs : s.OnUnitMesh)
    (hp : p ∈ s.panels) (line : Orientation) :
    s.bandCount line p =
        s.panels.countP (·.rect.values.SharesBand p.rect.values line) +
          s.panels.countP (·.rect.values.Strays p.rect.values line) := by
  have hcount := h.bandCount_eq hs.onMesh_values (List.mem_map_of_mem hp) line
  rw [bandCount_values hs (hs p hp), panels_values, List.countP_map, List.countP_map] at hcount
  exact hcount

end Layout

/-! ### Thick panels -/

namespace Binary64

variable {a : Float}

theorem represents_mesh : Represents (1 / 524288) mesh := by
  decide +kernel

/-- What is thick enough after halving was so before. -/
theorem mesh_le_of_mesh_le_half (h : 1 / 524288 ≤ half a) : 1 / 524288 ≤ a := by
  rw [le_iff_notBelow represents_mesh] at h ⊢
  rcases parts_cases a with ⟨q, ha⟩ | ⟨s, ha⟩ | ha
  · refine Or.inr ⟨q, ha, le_of_not_gt fun hlt => ?_⟩
    have hroom : Representable (mesh / 2) := by
      have hlarge := two_pow_le_mesh.trans (le_abs_self _)
      exact (represents_half represents_mesh (Or.inr hlarge)).representable
    refine h.not_notAbove (half_lt_self mesh_pos) (((rounds_half ha) _ hroom).2 ?_)
    linarith
  · rw [parts_half_infinity ha] at h
    rwa [ha]
  · rw [parts_half_notANumber ha] at h
    exact absurd h not_notBelow_notANumber

end Binary64

namespace Span

variable {s : Span Float} {j : ℕ}

/-- An aligned span that is thick enough stems from 19 cuts at most. -/
theorem AlignedAt.le_of_thick (h : s.AlignedAt j) (hmin : 1 / 524288 ≤ s.extent) : j ≤ 19 := by
  obtain ⟨m, -, hextent, -⟩ := h
  rw [le_iff_of_represents represents_mesh hextent,
    show mesh = (1 / 2) ^ 19 by norm_num [mesh]] at hmin
  exact (pow_le_pow_iff_right_of_lt_one₀ (by norm_num) (by norm_num)).1 hmin

theorem AlignedAt.onUnitMesh (h : s.AlignedAt j) (hj : j ≤ 19) : s.OnUnitMesh := by
  have haligned := h.aligned
  obtain ⟨m, hm, hextent, hstart⟩ := h
  have hpos : (0 : ℚ) < (1 / 2) ^ j := by positivity
  have hunit : (2 : ℚ) ^ j * (1 / 2) ^ j = 1 := by
    rw [← mul_pow]
    norm_num
  have hle : (m : ℚ) + 1 ≤ 2 ^ j := by exact_mod_cast hm
  have hstop : (m : ℚ) * (1 / 2) ^ j + (1 / 2) ^ j ≤ 1 := by
    calc (m : ℚ) * (1 / 2) ^ j + (1 / 2) ^ j = (m + 1) * (1 / 2) ^ j := by ring
      _ ≤ 2 ^ j * (1 / 2) ^ j := mul_le_mul_of_nonneg_right hle hpos.le
      _ = 1 := hunit
  have hnonneg : 0 ≤ (m : ℚ) * (1 / 2) ^ j := by positivity
  have hmin : mesh ≤ s.values.extent := by
    change mesh ≤ value s.extent
    rw [hextent.value_eq, show mesh = (1 / 2) ^ 19 by norm_num [mesh]]
    exact pow_le_pow_of_le_one (by norm_num) (by norm_num) hj
  refine .of_represents hstart hextent ?_ ⟨hnonneg, by linarith⟩ ⟨by linarith, hstop⟩
  have hmesh := haligned.onMesh hmin
  unfold values at hmesh
  rwa [hstart.value_eq, hextent.value_eq] at hmesh

end Span

namespace Layout

variable {s t : Layout Float} {p : Panel Float} {id : PanelId} {c : Config}

/-- No panel is narrower or lower than the mesh is wide. -/
def Thick (s : Layout Float) : Prop :=
  ∀ p ∈ s.panels, ∀ o, 1 / 524288 ≤ (p.rect.along o).extent

instance (s : Layout Float) : Decidable s.Thick :=
  inferInstanceAs (Decidable (∀ p ∈ s.panels, _))

theorem thick_iff (hs : s.Finite) : s.Thick ↔ s.values.AtLeastMesh := by
  unfold Thick AtLeastMesh
  rw [forall_values]
  refine forall₂_congr fun p hp => forall_congr' fun o => ?_
  rw [le_iff_of_represents represents_mesh (hs p hp o).2, ← Rect.along_values]
  rfl

theorem OnUnitMesh.finite (hs : s.OnUnitMesh) : s.Finite :=
  fun p hp o => (hs p hp o).finite

/-- If no panel is thin after a split, none was before. -/
theorem Split.thick {cut : Orientation} {kept created : Rect Float}
    (h : s.Split t p cut kept created id) (hmin : t.Thick) : s.Thick := by
  have hhalf : ∃ q ∈ t.panels, q.rect = p.rect.halfAt cut .before := by
    rcases h.halves with heq | heq
    · exact ⟨_, h.mem_kept, congrArg Prod.fst heq.symm⟩
    · exact ⟨⟨id, created⟩, h.mem_iff.2 (Or.inr (Or.inl rfl)), congrArg Prod.fst heq.symm⟩
  obtain ⟨k, hk, hrect⟩ := hhalf
  intro q hq o
  by_cases hqp : q = p
  · subst hqp
    have hextent := hmin k hk o
    rw [hrect] at hextent
    rcases Orientation.eq_or_eq_flip cut o with rfl | rfl
    · rwa [Rect.along_halfAt] at hextent
    · rw [Rect.along_flip_halfAt_before] at hextent
      exact mesh_le_of_mesh_le_half hextent
  · exact hmin q (h.mem_iff.2 (Or.inr (Or.inr ⟨hq, hqp⟩))) o

/-! ### Runs of splits alone -/

namespace SplitOnly

/-- **Panels that are thick enough are aligned.** -/
theorem exists_alignedAt (h : s.SplitOnly) (hmin : s.Thick) :
    ∀ p ∈ s.panels, ∀ o, ∃ j ≤ 19, (p.rect.along o).AlignedAt j := by
  induction h with
  | initial c id =>
    intro p hp o
    rw [mem_panels_single.1 hp]
    exact ⟨0, by norm_num, Rect.alignedAt_unit o⟩
  | @split s t limits id _ ht ih =>
    obtain ⟨p, cut, kept, created, hsplit⟩ := ht.exists_split
    have ih := ih (hsplit.thick hmin)
    intro q hq o
    rcases hsplit.half_or_mem hq with ⟨-, side, hrect⟩ | ⟨hq, -⟩
    · rcases Orientation.eq_or_eq_flip cut o with rfl | rfl
      · rw [hrect, Rect.along_halfAt]
        exact ih p hsplit.mem _
      · obtain ⟨j, hj, haligned⟩ := ih p hsplit.mem cut.flip
        have hhalf := Rect.alignedAt_halfAt haligned (by omega) side
        rw [← hrect] at hhalf
        exact ⟨j + 1, hhalf.le_of_thick (hmin q hq _), hhalf⟩
    · exact ih q hq o

/-- **A layout made by splits alone is on the mesh** if no panel is thinner than that. -/
theorem onUnitMesh (h : s.SplitOnly) (hmin : s.Thick) : s.OnUnitMesh := by
  intro p hp o
  obtain ⟨j, hj, haligned⟩ := h.exists_alignedAt hmin p hp o
  exact haligned.onUnitMesh hj

/-- **A run of splits alone is exact.** -/
theorem values (h : s.SplitOnly) (hmin : s.Thick) : s.values.SplitOnly := by
  induction h with
  | initial c id =>
    rw [values_initial]
    exact .initial c id
  | split hs ht ih =>
    obtain ⟨p, cut, kept, created, hsplit⟩ := ht.exists_split
    have hmin' := hsplit.thick hmin
    exact .split (ih hmin') (ht.values (hs.onUnitMesh hmin'))

theorem atLeastMesh_values (h : s.SplitOnly) (hmin : s.Thick) : s.values.AtLeastMesh :=
  (thick_iff (h.onUnitMesh hmin).finite).1 hmin

theorem upright (h : s.SplitOnly) (hmin : s.Thick) : s.Upright :=
  upright_of_emptyOrPerfect (Or.inr (h.values hmin).perfect)

end SplitOnly

/-! ### Removing panels -/

/-- **Every panel of a layout made by splits alone can be removed.**  If no panel is narrower or
lower than the mesh is wide, all numbers are finite and on the mesh, each removal succeeds, and each
panel that is not alone has a side that is covered exactly by neighbours within it. -/
theorem remove_splitOnly (h : s.SplitOnly) (hmin : s.Thick) (hp : p ∈ s.panels) :
    s.OnUnitMesh ∧ (∃ t, s.remove p.id = .ok t) ∧
      (2 ≤ s.size → ∃ b side, s.values.CoveredExactly p.rect.values b side) := by
  have hs := h.onUnitMesh hmin
  obtain ⟨⟨t', ht'⟩, hcovered⟩ :=
    (h.values hmin).removable (h.atLeastMesh_values hmin) (List.mem_map_of_mem hp)
  obtain ⟨t, ht, -⟩ := exists_remove_of_values hs (h.upright hmin) ht'
  exact ⟨hs, ⟨t, ht⟩, fun hsize => hcovered (s.size_values ▸ hsize)⟩

theorem splitOnly_twoColumns : twoColumns.SplitOnly :=
  .split (.initial Config.standard ⟨1⟩) successor_initial_twoColumns

theorem splitOnly_columnBesideHalves : columnBesideHalves.SplitOnly :=
  .split splitOnly_twoColumns successor_twoColumns

/-- A column and the halves of another one can all be removed. -/
theorem remove_panel_of_columnBesideHalves :
    (columnBesideHalves.SplitOnly ∧ columnBesideHalves.Thick) ∧
      ∀ p ∈ columnBesideHalves.panels, (∃ t, columnBesideHalves.remove p.id = .ok t) ∧
        ∃ b side, columnBesideHalves.values.CoveredExactly p.rect.values b side := by
  have hmin : columnBesideHalves.Thick := by decide +kernel
  refine ⟨⟨splitOnly_columnBesideHalves, hmin⟩, fun p hp => ?_⟩
  obtain ⟨-, hremove, hcovered⟩ := remove_splitOnly splitOnly_columnBesideHalves hmin hp
  exact ⟨hremove, hcovered (by decide +kernel)⟩

/-! ### Moving handles -/

/-- **Moving a handle of a layout made by splits alone moves every panel that has to move.**  If no
panel is narrower or lower than the mesh is wide, all numbers are finite, the connected panels have
an edge on the line of the handle, and every panel that shares a stretch of such an edge is
connected too. -/
theorem closed_of_splitOnly (hs : s.SplitOnly) (hmin : s.Thick) {workspace : Orientation}
    {h : Handle Float} (hh : h ∈ s.handles workspace) :
    s.OnUnitMesh ∧ h.OnUnitFineMesh ∧
      (∀ id ∈ h.panels, ∃ p ∈ s.panels, p.id = id ∧
        p.rect.values.HasEdge h.boundary (value h.line)) ∧
      ∀ p ∈ s.panels, p.id ∈ h.panels → p.rect.values.HasEdge h.boundary (value h.line) →
        ∀ q ∈ s.panels, q.rect.values.HasEdge h.boundary (value h.line) →
          (p.rect.values.along h.boundary).Meets (q.rect.values.along h.boundary) →
          q.id ∈ h.panels := by
  have hmesh := hs.onUnitMesh hmin
  obtain ⟨hhandles, hfine⟩ := handles_values hmesh workspace
  have hmem : h.values ∈ s.values.handles workspace := by
    rw [hhandles]
    exact List.mem_map_of_mem hh
  obtain ⟨hedge, hclosed⟩ := (hs.values hmin).closed (hs.atLeastMesh_values hmin) hmem
  rw [Handle.line_values] at hedge hclosed
  refine ⟨hmesh, hfine h hh, fun id hid => ?_, fun p hp hph hpl q hq hql hmeets => ?_⟩
  · obtain ⟨x, hx, hxid, hxl⟩ := hedge id hid
    obtain ⟨p, hp, rfl⟩ := List.mem_map.1 hx
    exact ⟨p, hp, hxid, hxl⟩
  · exact hclosed p.values (List.mem_map_of_mem hp) hph hpl q.values (List.mem_map_of_mem hq) hql
      hmeets

/-- The handle at the upper end of the line between a column and two halves moves all three. -/
theorem closed_columnBesideHalves :
    columnBesideHalves.SplitOnly ∧ columnBesideHalves.Thick ∧
      ∃ h ∈ columnBesideHalves.handles .horizontal,
        h.boundary = .vertical ∧ value h.line = 1 / 2 ∧ h.panels = [⟨1⟩, ⟨2⟩, ⟨3⟩] ∧
        ∀ p ∈ columnBesideHalves.panels, p.id ∈ h.panels →
          p.rect.values.HasEdge .vertical (1 / 2) →
          ∀ q ∈ columnBesideHalves.panels, q.rect.values.HasEdge .vertical (1 / 2) →
            (p.rect.values.along .vertical).Meets (q.rect.values.along .vertical) →
            q.id ∈ h.panels := by
  have hmin : columnBesideHalves.Thick := by decide +kernel
  have hmem : ⟨.vertical, ⟨1 / 2, 1 / 4⟩, [⟨1⟩, ⟨2⟩, ⟨3⟩]⟩ ∈
      columnBesideHalves.values.handles .horizontal := by
    rw [values_columnBesideHalves]
    decide +kernel
  rw [(handles_values (splitOnly_columnBesideHalves.onUnitMesh hmin) _).1] at hmem
  obtain ⟨h, hh, heq⟩ := List.mem_map.1 hmem
  have hboundary : h.boundary = .vertical := congrArg Handle.boundary heq
  have hline : value h.line = 1 / 2 := by
    rw [← Handle.line_values, heq]
    rfl
  obtain ⟨-, -, -, hclosed⟩ := closed_of_splitOnly splitOnly_columnBesideHalves hmin hh
  rw [hboundary, hline] at hclosed
  exact ⟨splitOnly_columnBesideHalves, hmin, h, hh, hboundary, hline, congrArg Handle.panels heq,
    hclosed⟩

/-! ### Runs within limits -/

/-- Where panels begin and end in one direction. -/
def edges (s : Layout Float) (o : Orientation) : List Float :=
  s.panels.flatMap fun p => [(p.rect.along o).start, (p.rect.along o).stop]

theorem OnUnitMesh.edges (hs : s.OnUnitMesh) {o : Orientation} {a : Float} (ha : a ∈ s.edges o) :
    Binary64.OnUnitMesh a := by
  obtain ⟨p, hp, ha⟩ := List.mem_flatMap.1 ha
  obtain ⟨hstart, hstop⟩ := (hs p hp o).ends
  rcases List.mem_pair.1 ha with rfl | rfl
  · exact hstart
  · exact hstop

/-- A run of splits within limits of at most twenty is exact. -/
theorem values_grows (hlimits : ∀ o, 1 ≤ c.limits.onLine o ∧ c.limits.onLine o ≤ 20)
    (h : ReflTransGen (Grows c) (c.initial id) s) :
    s.SplitOnly ∧ s.Thick ∧ ReflTransGen (Grows c) (c.initial id) s.values := by
  induction h with
  | refl =>
    refine ⟨.initial c id, ?_, ?_⟩
    · have hunit : ∀ o, 1 / 524288 ≤ ((Rect.unit : Rect Float).along o).extent := by decide +kernel
      intro p hp
      rw [mem_panels_single.1 hp]
      exact hunit
    · rw [values_initial]
  | @tail s t _ hstep ih =>
    obtain ⟨hsplitOnly, hmin, hrun⟩ := ih
    obtain ⟨id', hsuccessor⟩ := grows_iff.1 hstep
    obtain ⟨p, cut, kept, created, hsplit⟩ := hsuccessor.exists_split
    have hs := hsplitOnly.onUnitMesh hmin
    have hrun' := hrun.tail (grows_iff.2 ⟨id', hsuccessor.values hs⟩)
    have hmin' := (uncrowded_of_run hlimits hrun').atLeastMesh hlimits
    exact ⟨hsplitOnly.split hsuccessor, (thick_iff (hsplit.finite hs)).2 hmin', hrun'⟩

/-- **The limits bound how thin panels get.**  Take settings with at most twenty columns and rows
and any run of splits that they allow.  All numbers are finite and on the mesh, no panel is narrower
than `2 ^ (1 - columns)` or lower than `2 ^ (1 - rows)`, so none is as thin as the tolerance, and
edges at different coordinates of one axis stay more than the tolerance apart. -/
theorem extent_of_run (c : Config) (id : PanelId)
    (hlimits : ∀ o, 1 ≤ c.limits.onLine o ∧ c.limits.onLine o ≤ 20)
    (h : ReflTransGen (Grows c) (c.initial id) s) :
    s.OnUnitMesh ∧
      (∀ p ∈ s.panels, ∀ o, (1 / 2) ^ (c.limits.onLine o - 1) ≤ value (p.rect.along o).extent ∧
        tolerance < (p.rect.along o).extent) ∧
      ∀ o, ∀ a ∈ s.edges o, ∀ b ∈ s.edges o, value a ≠ value b →
        value tolerance < |value a - value b| ∧ ¬ Near a b := by
  obtain ⟨hsplitOnly, hmin, hrun⟩ := values_grows hlimits h
  have hs := hsplitOnly.onUnitMesh hmin
  have huncrowded := uncrowded_of_run hlimits hrun
  refine ⟨hs, fun p hp o => ⟨?_, ?_⟩, fun o a ha b hb hne => ?_⟩
  · have hextent := huncrowded.splitOnly.pow_le_extent (hlimits o).1 (huncrowded.lineCount_le o)
      (List.mem_map_of_mem hp)
    change _ ≤ (p.rect.values.along o).extent at hextent
    rwa [Rect.along_values] at hextent
  · have hmesh := (le_iff_of_represents represents_mesh (hs p hp o).extent).1 (hmin p hp o)
    exact (lt_iff_of_represents represents_tolerance (hs p hp o).extent).2
      (toleranceValue_lt_mesh.trans_le hmesh)
  · have ha := hs.edges ha
    have hb := hs.edges hb
    have hfar : mesh ≤ |value a - value b| :=
      (eq_zero_or_mesh_le (ha.onMesh.sub hb.onMesh)).resolve_left (sub_ne_zero.2 hne)
    rw [represents_tolerance.value_eq]
    exact ⟨toleranceValue_lt_mesh.trans_le hfar,
      not_near_of_mesh_le ha.represents hb.represents hfar⟩

/-- Three panels under the limits of four columns and four rows. -/
theorem extent_of_run_columnBesideHalves :
    ∃ c : Config, c.limits = ⟨4, 4⟩ ∧
      (∀ o, 1 ≤ c.limits.onLine o ∧ c.limits.onLine o ≤ 20) ∧
      ReflTransGen (Grows c) (c.initial ⟨1⟩) columnBesideHalves ∧
      (∀ p ∈ columnBesideHalves.panels, ∀ o,
        (1 / 2) ^ (c.limits.onLine o - 1) ≤ value (p.rect.along o).extent ∧
          tolerance < (p.rect.along o).extent) ∧
      ∀ o, ∀ a ∈ columnBesideHalves.edges o, ∀ b ∈ columnBesideHalves.edges o,
        value a ≠ value b → value tolerance < |value a - value b| ∧ ¬ Near a b := by
  have hlimits : ∀ o, 1 ≤ (⟨4, 4⟩ : Limits).onLine o ∧ (⟨4, 4⟩ : Limits).onLine o ≤ 20 := by
    decide
  have hrun : ReflTransGen (Grows ⟨⟨4, 4⟩, .horizontal⟩)
      (Config.initial ⟨⟨4, 4⟩, .horizontal⟩ ⟨1⟩) columnBesideHalves :=
    .head (grows_iff.2 ⟨_, successor_initial_twoColumns⟩)
      (.single (grows_iff.2 ⟨_, successor_twoColumns⟩))
  obtain ⟨-, hextent, hedges⟩ := extent_of_run ⟨⟨4, 4⟩, .horizontal⟩ ⟨1⟩ hlimits hrun
  exact ⟨⟨⟨4, 4⟩, .horizontal⟩, rfl, hlimits, hrun, hextent, hedges⟩

end Layout

end Mosaic
