import Mathlib.Logic.Relation
import Mosaic.Config
import Mosaic.Proofs.Removal

/-!
# Runs

A run starts with one panel that fills the workspace and takes splits and removals in any order.  As
long as it stays on the mesh, every layout that it visits is without panels or tiles the unit square
exactly, and is valid.

* `Layout.Edit`: one step of a run.
* `Layout.tiles_of_run`: the invariant of all runs.
-/

namespace Mosaic

open Coordinate Relation

namespace Layout

/-- One step: a candidate whose pending panel has got its label, a removal, or a refused removal,
which leaves the layout as it was. -/
inductive Edit {α : Type} [Coordinate α] (s : Layout α) : Layout α → Prop
  | split {limits : Limits} {id : PanelId} {t : Layout α} (ht : s.Successor limits id t) : Edit s t
  | removal {id : PanelId} {t : Layout α} (ht : s.remove id = .ok t) : Edit s t
  | refusal {id : PanelId} {e : Refusal} (he : s.remove id = .error e) : Edit s s

/-- A step to a layout on the mesh. -/
def EditOnMesh (s t : Layout ℚ) : Prop :=
  s.Edit t ∧ t.OnMesh

variable {s t : Layout ℚ} {id : PanelId}

/-! ### Validity -/

theorem validate_of_panels_eq_nil (h : s.panels = []) : s.validate = .ok () := by
  simp [validate, h]

theorem Perfect.violationAt?_eq_none (h : s.Perfect) {p : Panel ℚ} (hp : p ∈ s.panels) :
    s.violationAt? p = none := by
  have hwithin : p.rect.WithinUnit := by
    constructor
    · exact ⟨atMost_of_le (h.within p hp .horizontal).1, atMost_of_le (h.within p hp .horizontal).2⟩
    · exact ⟨atMost_of_le (h.within p hp .vertical).1, atMost_of_le (h.within p hp .vertical).2⟩
  unfold violationAt?
  rw [if_neg (not_not_intro hwithin), Option.map_eq_none_iff, List.find?_eq_none]
  intro q hq
  rw [decide_eq_true_eq]
  rintro ⟨hid, hhorizontal, hvertical⟩
  have hne : p ≠ q := fun heq => hid (congrArg Panel.id heq.symm)
  rcases (Rect.apart_iff .horizontal).1 (h.apart p hp q hq hne) with hnot | hnot
  · exact hnot hhorizontal.meets
  · exact hnot hvertical.meets

/-- **A perfect layout is valid.** -/
theorem Perfect.validate (h : s.Perfect) : s.validate = .ok () := by
  have hnone : s.panels.findSome? s.violationAt? = none := by
    rw [List.findSome?_eq_none_iff]
    exact fun p hp => h.violationAt?_eq_none hp
  have harea : s.coveredArea = 1 := by
    rw [← h.area, List.sum_eq_foldl]
    rfl
  unfold Layout.validate
  rw [hnone, harea]
  simp [near_refl]

/-! ### The invariant -/

/-- No panels, or a perfect layout. -/
def EmptyOrPerfect (s : Layout ℚ) : Prop :=
  s.panels = [] ∨ s.Perfect

theorem EmptyOrPerfect.perfect {p : Panel ℚ} (h : s.EmptyOrPerfect) (hp : p ∈ s.panels) :
    s.Perfect :=
  h.resolve_left (List.ne_nil_of_mem hp)

theorem Edit.eq_of_panels_eq_nil (ht : s.Edit t) (h : s.panels = []) : t = s := by
  cases ht with
  | split ht =>
    obtain ⟨p, cut, kept, created, hsplit⟩ := ht.exists_split
    have hp := hsplit.mem
    rw [h] at hp
    cases hp
  | @removal id _ ht =>
    have hnone : s.find? id = none := by simp [find?, h]
    simp [remove, hnone] at ht
  | refusal he => rfl

/-- A step keeps the invariant. -/
theorem EmptyOrPerfect.edit (h : s.EmptyOrPerfect) (hm : s.OnMesh) (ht : s.Edit t) :
    t.EmptyOrPerfect := by
  rcases h with hnil | hperfect
  · rw [ht.eq_of_panels_eq_nil hnil]
    exact Or.inl hnil
  · cases ht with
    | split ht =>
      obtain ⟨p, cut, kept, created, hsplit⟩ := ht.exists_split
      exact Or.inr (hsplit.perfect hperfect)
    | removal ht => exact hperfect.remove hm ht
    | refusal he => exact Or.inr hperfect

theorem onMesh_single (id : PanelId) (o : Orientation) : (single id o : Layout ℚ).OnMesh := by
  intro p hp
  have hp' : p ∈ [(⟨id, .unit⟩ : Panel ℚ)] := hp
  rw [List.mem_singleton.1 hp']
  exact ⟨.zero, .zero, .one, .one⟩

/-- A run on the mesh keeps the invariant. -/
theorem EmptyOrPerfect.run (h : s.EmptyOrPerfect) (hm : s.OnMesh)
    (ht : ReflTransGen EditOnMesh s t) : t.EmptyOrPerfect ∧ t.OnMesh := by
  induction ht with
  | refl => exact ⟨h, hm⟩
  | tail _ hstep ih => exact ⟨ih.1.edit ih.2 hstep.1, hstep.2⟩

theorem emptyOrPerfect_of_run {c : Config} (h : ReflTransGen EditOnMesh (c.initial id) s) :
    s.EmptyOrPerfect ∧ s.OnMesh :=
  EmptyOrPerfect.run (Or.inr (perfect_single _ _)) (onMesh_single _ _) h

/-- **Exact tiling is an invariant of every run.**  Whatever splits and removals a run on the mesh
takes, with whatever limits and labels, each layout that it visits is without panels or tiles the
unit square, and is valid. -/
theorem tiles_of_run (c : Config) (id : PanelId)
    (h : ReflTransGen EditOnMesh (c.initial id) s) :
    (s.panels = [] ∨ s.Tiles) ∧ s.validate = .ok () := by
  rcases (emptyOrPerfect_of_run h).1 with hnil | hperfect
  · exact ⟨Or.inl hnil, validate_of_panels_eq_nil hnil⟩
  · exact ⟨Or.inr (tiles_iff_perfect.2 hperfect), hperfect.validate⟩

/-- Two columns. -/
def columns : Layout ℚ :=
  (empty .horizontal).putAll [⟨⟨1⟩, ⟨0, 0, 1 / 2, 1⟩⟩, ⟨⟨2⟩, ⟨1 / 2, 0, 1 / 2, 1⟩⟩]

/-- A column, and the halves of another one. -/
def columnAndHalves : Layout ℚ :=
  (empty .horizontal).putAll [⟨⟨1⟩, ⟨0, 0, 1 / 2, 1⟩⟩, ⟨⟨2⟩, ⟨1 / 2, 0, 1 / 2, 1 / 2⟩⟩,
    ⟨⟨3⟩, ⟨1 / 2, 1 / 2, 1 / 2, 1 / 2⟩⟩]

/-- Two rows. -/
def rows : Layout ℚ :=
  (empty .horizontal).putAll [⟨⟨2⟩, ⟨0, 0, 1, 1 / 2⟩⟩, ⟨⟨3⟩, ⟨0, 1 / 2, 1, 1 / 2⟩⟩]

theorem successor_initial :
    (Config.standard.initial ⟨1⟩ : Layout ℚ).Successor ⟨2, 2⟩ ⟨2⟩ columns :=
  successor_iff.2 (by cbv)

theorem successor_columns : columns.Successor ⟨2, 2⟩ ⟨3⟩ columnAndHalves :=
  successor_iff.2 (by cbv)

theorem remove_columnAndHalves : columnAndHalves.remove ⟨1⟩ = .ok rows := by
  cbv

/-- Two splits and the removal of the first panel. -/
theorem tiles_of_run_rows :
    ReflTransGen EditOnMesh (Config.standard.initial ⟨1⟩) rows ∧
      (rows.panels = [] ∨ rows.Tiles) ∧ rows.validate = .ok () := by
  have hrun : ReflTransGen EditOnMesh (Config.standard.initial ⟨1⟩) rows := by
    refine ReflTransGen.head (b := columns) ⟨.split successor_initial, by decide +kernel⟩ ?_
    refine ReflTransGen.head (b := columnAndHalves) ⟨.split successor_columns, by decide +kernel⟩ ?_
    exact ReflTransGen.single ⟨.removal remove_columnAndHalves, by decide +kernel⟩
  exact ⟨hrun, tiles_of_run Config.standard ⟨1⟩ hrun⟩

end Layout

end Mosaic
