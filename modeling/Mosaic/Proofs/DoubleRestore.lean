import Mosaic.Proofs.DoubleRuns
import Mosaic.Proofs.Restore

/-!
# Undoing a split in double precision

The removal of a created panel is exact, so it restores the numbers of a layout if exact arithmetic
does.  Zero is the one number that two doubles stand for, and no operation on a layout made by
splits alone produces the negative one: starts stay what they were or lie inside the workspace, and
extents are positive.  So the doubles themselves are restored.

* `Binary64.Plain`: finite, and not the negative zero.  Such doubles are told apart by their
  numbers.
* `Layout.plain_of_remove`, `SplitOnly.plain`: splits and removals keep doubles plain.
* `Layout.remove_created_iff`: when removing the created panel restores the layout.
-/

namespace Mosaic

open Coordinate Binary64

/-! ### Plain doubles -/

namespace Binary64

/-- The double is finite, and it is not the negative zero. -/
structure Plain (a : Float) : Prop where
  represents : Represents a (value a)
  eq_zero : value a = 0 → a = 0

variable {a b : Float} {q : ℚ}

/-- Plain doubles that stand for the same number are the same. -/
theorem Plain.eq (ha : Plain a) (hb : Plain b) (h : value a = value b) : a = b := by
  by_cases hzero : value a = 0
  · rw [ha.eq_zero hzero, hb.eq_zero (h ▸ hzero)]
  · exact ha.represents.eq_of_ne (h ▸ hb.represents) hzero

theorem plain_zero : Plain 0 :=
  ⟨represents_zero.self, fun _ => rfl⟩

theorem Represents.plain (h : Represents a q) (hq : 0 < q) : Plain a := by
  refine ⟨h.self, fun hzero => ?_⟩
  rw [h.value_eq] at hzero
  exact absurd hzero hq.ne'

theorem Plain.least (ha : Plain a) (hb : Plain b) : Plain (least a b) := by
  unfold Coordinate.least
  split
  · exact hb
  · split
    · exact ha
    · exact hb

end Binary64

/-- Start and extent are plain. -/
def Span.Plain (s : Span Float) : Prop :=
  Binary64.Plain s.start ∧ Binary64.Plain s.extent

theorem Span.Plain.halves {s : Span Float} (h : s.Plain) (hs : s.OnUnitMesh)
    (hpos : 0 < s.values.extent) : s.halves.1.Plain ∧ s.halves.2.Plain := by
  have hhalf : 0 < s.values.extent / 2 := half_pos hpos
  exact ⟨⟨h.1, hs.represents_half.plain hhalf⟩,
    hs.represents_middle.plain (add_pos_of_nonneg_of_pos hs.start_mem.1 hhalf),
    hs.represents_rest.plain hhalf⟩

namespace Rect

/-- Both spans are plain. -/
def Plain (r : Rect Float) : Prop :=
  ∀ o, (r.along o).Plain

variable {r q : Rect Float}

theorem plain_unit : (unit : Rect Float).Plain := by
  have hspan : Span.Plain ⟨0, 1⟩ := ⟨plain_zero, represents_one.plain one_pos⟩
  intro o
  cases o <;> exact hspan

theorem Plain.eq (hr : r.Plain) (hq : q.Plain) (h : r.values = q.values) : r = q := by
  obtain ⟨hx, hy, hwidth, hheight⟩ := Rect.mk.injEq .. ▸ h
  obtain ⟨x, y, width, height⟩ := r
  obtain ⟨x', y', width', height'⟩ := q
  congr 1
  · exact (hr .horizontal).1.eq (hq .horizontal).1 hx
  · exact (hr .vertical).1.eq (hq .vertical).1 hy
  · exact (hr .horizontal).2.eq (hq .horizontal).2 hwidth
  · exact (hr .vertical).2.eq (hq .vertical).2 hheight

theorem Plain.halfAt (h : r.Plain) (hr : ∀ o, (r.along o).OnUnitMesh)
    (hpos : ∀ o, 0 < (r.along o).values.extent) (cut : Orientation) (side : Side) :
    (r.halfAt cut side).Plain := by
  obtain ⟨hbefore, hafter⟩ := (h cut.flip).halves (hr _) (hpos _)
  intro o
  rcases Orientation.eq_or_eq_flip cut o with rfl | rfl
  · rw [along_halfAt]
    exact h _
  · cases side with
    | before => rwa [along_flip_halfAt_before]
    | after => rwa [along_flip_halfAt_after]

theorem Plain.growOver (hqplain : q.Plain) (hrplain : r.Plain)
    (hq : ∀ o, (q.along o).OnUnitMesh) (hr : ∀ o, (r.along o).OnUnitMesh)
    (hqpos : ∀ o, 0 < (q.along o).values.extent) (hrpos : ∀ o, 0 < (r.along o).values.extent)
    (b : Orientation) : (q.growOver r b).Plain := by
  intro o
  rcases Orientation.eq_or_eq_flip b o with rfl | rfl
  · rw [along_growOver]
    exact hqplain _
  · unfold Rect.growOver
    rw [along_flip_ofSpans]
    exact ⟨(hqplain _).1.least (hrplain _).1,
      (represents_growOver hq hr b).2.plain (add_pos (hqpos _) (hrpos _))⟩

end Rect

/-! ### Plain layouts -/

namespace Layout

variable {s t : Layout Float} {id : PanelId}

/-- All coordinates are plain. -/
def Plain (s : Layout Float) : Prop :=
  ∀ p ∈ s.panels, p.rect.Plain

/-- **Plain layouts with the same numbers are the same.** -/
theorem Plain.eq (hs : s.Plain) (ht : t.Plain) (h : s.values = t.values) : s = t := by
  have horientation : s.values.orientation = t.values.orientation := by rw [h]
  refine ext_find? horientation fun id => ?_
  have hfind : (s.find? id).map Rect.values = (t.find? id).map Rect.values := by
    rw [← find?_values, ← find?_values, h]
  cases hr : s.find? id with
  | none =>
    rw [hr, Option.map_none, eq_comm, Option.map_eq_none_iff] at hfind
    exact hfind.symm
  | some r =>
    rw [hr, Option.map_some, eq_comm, Option.map_eq_some_iff] at hfind
    obtain ⟨q, hq, hvalues⟩ := hfind
    have hrect : r = q := (hs ⟨id, r⟩ (find?_eq_some_iff.1 hr)).eq
      (ht ⟨id, q⟩ (find?_eq_some_iff.1 hq)) hvalues.symm
    rw [hq, hrect]

/-- A removal keeps coordinates plain. -/
theorem plain_of_remove (hplain : s.Plain) (hs : s.OnUnitMesh)
    (hpos : ∀ p ∈ s.panels, ∀ o, 0 < (p.rect.along o).values.extent)
    (ht : s.remove id = .ok t) : t.Plain := by
  cases hfind : s.find? id with
  | none =>
    rw [remove_of_find?_eq_none hfind] at ht
    cases ht
  | some r =>
    have hp : (⟨id, r⟩ : Panel Float) ∈ s.panels := find?_eq_some_iff.1 hfind
    intro q hq
    rcases grown_or_mem_of_remove hp ht hq with hunit | ⟨k, hk, b, hgrown⟩ | hq
    · rw [hunit]
      exact Rect.plain_unit
    · rw [hgrown]
      exact (hplain k hk).growOver (hplain _ hp) (hs k hk) (hs _ hp) (hpos k hk) (hpos _ hp) b
    · exact hplain q hq

namespace SplitOnly

theorem positive (h : s.SplitOnly) (hmin : s.Thick) :
    ∀ p ∈ s.panels, ∀ o, 0 < (p.rect.along o).values.extent := by
  intro p hp o
  have hpos : 0 < (p.rect.values.along o).extent :=
    (h.values hmin).perfect.positive p.values (List.mem_map_of_mem hp) o
  rwa [Rect.along_values] at hpos

/-- Splits keep coordinates plain. -/
theorem plain (h : s.SplitOnly) (hmin : s.Thick) : s.Plain := by
  induction h with
  | initial c id =>
    intro p hp
    rw [mem_panels_single.1 hp]
    exact Rect.plain_unit
  | split hs ht ih =>
    obtain ⟨p, cut, kept, created, hsplit⟩ := ht.exists_split
    have hmin' := hsplit.thick hmin
    intro q hq
    rcases hsplit.half_or_mem hq with ⟨-, side, hrect⟩ | ⟨hq, -⟩
    · rw [hrect]
      exact (ih hmin' p hsplit.mem).halfAt (hs.onUnitMesh hmin' p hsplit.mem)
        (hs.positive hmin' p hsplit.mem) cut side
    · exact ih hmin' q hq

end SplitOnly

/-! ### Removing the created panel -/

/-- **When removing a created panel restores the layout.**  In a layout made by splits alone, take
any candidate, give its pending panel any label that is not in use, and let no panel be narrower or
lower than the mesh is wide afterwards.  Then all numbers are finite and on the mesh, and the
removal of that panel succeeds.  It restores the layout exactly if and only if the cut has the
orientation of the layout or the created panel has no look-alike across boundaries of that
orientation. -/
theorem remove_created_iff {limits : Limits} {cs : List (Layout Float)} {pending : Layout Float}
    (h : s.SplitOnly) (hcs : s.candidates limits = .ok cs) (hc : pending ∈ cs)
    (hid : id ≠ .pending) (hfresh : id ∉ s.ids) :
    ∃ t, pending.commit id = .ok t ∧ (t.Thick → t.OnUnitMesh ∧
      ∃ p cut kept created u, s.Split t p cut kept created id ∧ t.remove id = .ok u ∧
        (u = s ↔ cut = s.orientation ∨
          ¬ t.values.LookAlike created.values s.orientation)) := by
  obtain ⟨t, ht⟩ := exists_commit_of_mem_candidates hcs hc hid hfresh
  refine ⟨t, ht, fun hmin => ?_⟩
  have hsuccessor : s.Successor limits id t := ⟨cs, hcs, pending, hc, ht⟩
  have htsplit : t.SplitOnly := h.split hsuccessor
  have htmesh := htsplit.onUnitMesh hmin
  obtain ⟨p, cut, kept, created, hsplit⟩ := hsuccessor.exists_split
  have hmin' := hsplit.thick hmin
  obtain ⟨u', hu', hiff⟩ := Split.remove_created (c := ⟨id, created.values⟩)
    (hsplit.values (h.onUnitMesh hmin')) (h.values hmin') (htsplit.values hmin)
    (htsplit.atLeastMesh_values hmin)
  obtain ⟨u, hu, rfl⟩ := exists_remove_of_values htmesh (htsplit.upright hmin) hu'
  refine ⟨htmesh, p, cut, kept, created, u, hsplit, hu, ?_⟩
  have hplain := plain_of_remove (htsplit.plain hmin) htmesh (htsplit.positive hmin) hu
  exact Iff.trans ⟨congrArg values, hplain.eq (h.plain hmin')⟩ hiff

/-- The lower half of a column is removed again. -/
theorem remove_created_columnBesideHalves :
    ∃ p cut kept created u, twoColumns.Split columnBesideHalves p cut kept created ⟨3⟩ ∧
      columnBesideHalves.remove ⟨3⟩ = .ok u ∧
        (u = twoColumns ↔ cut = .horizontal ∨
          ¬ columnBesideHalves.values.LookAlike created.values .horizontal) := by
  obtain ⟨cs, hcs, pending, hpending, hcommit⟩ := successor_twoColumns
  have hid : (⟨3⟩ : PanelId) ≠ .pending := by decide
  have hfresh : (⟨3⟩ : PanelId) ∉ twoColumns.ids := by decide +kernel
  obtain ⟨t, ht, hremove⟩ := remove_created_iff splitOnly_twoColumns hcs hpending hid hfresh
  obtain rfl : columnBesideHalves = t := Except.ok.inj (hcommit.symm.trans ht)
  exact (hremove (by decide +kernel)).2

end Layout

end Mosaic
