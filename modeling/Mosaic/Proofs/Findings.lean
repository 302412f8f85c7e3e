import Mathlib.Data.List.Nodup
import Mosaic.Proofs.Doubles
import Mosaic.Proofs.Edits
import Mosaic.Report

/-!
# The two checks of a layout

One check stops at the first violation, the other lists everything that it finds.  The first one
compares each panel with all others, the second one only with the panels after it, and they add up
the areas from different zeros.  They agree all the same, because rectangles intersect in either
order or in none, and because the sign of a zero decides no comparison.

* `Layout.findSome?_violationAt?`: panel by panel, both come upon the same violation first.
* `Layout.nodup_panelFindings`: nothing is found twice.
* `Layout.checks_agree`: the verdicts, the first errors and the intersecting pairs agree, for all
  numbers in double precision.
-/

namespace Mosaic

open Coordinate

variable {α : Type}

/-! ### What violations and findings are about -/

/-- The kind of the issue that reports the violation. -/
def Violation.code : Violation α → IssueCode
  | outOfBounds _ _ => .outOfBounds
  | overlap _ _ => .overlap
  | coverage _ => .coverage

/-- The panel that the violation is about. -/
def Violation.panel? : Violation α → Option PanelId
  | outOfBounds id _ => some id
  | overlap id _ => some id
  | coverage _ => none

/-- The panel that the first one collides with. -/
def Violation.related? : Violation α → Option PanelId
  | outOfBounds _ _ => none
  | overlap _ other => some other
  | coverage _ => none

/-- The violation that was found, if it is one. -/
def Finding.violation? : Finding α → Option (Violation α)
  | pending _ => none
  | violation v => some v

/-- The panel that the finding is about. -/
def Finding.panel? : Finding α → Option PanelId
  | pending id => some id
  | violation v => v.panel?

/-- The issue reports the violation as an error. -/
structure Issue.Reports (i : Issue) (v : Violation α) : Prop where
  severity : i.severity = .error
  code : i.code = v.code
  panel : i.panel = v.panel?
  related : i.related = v.related?

/-- The issue reports that two panels intersect, named in either order. -/
def Issue.Names (i : Issue) (a b : PanelId) : Prop :=
  i.code = .overlap ∧
    (i.panel = some a ∧ i.related = some b ∨ i.panel = some b ∧ i.related = some a)

instance (i : Issue) (a b : PanelId) : Decidable (i.Names a b) :=
  inferInstanceAs (Decidable (_ ∧ _))

theorem Issue.names_comm {i : Issue} {a b : PanelId} : i.Names a b ↔ i.Names b a :=
  and_congr_right fun _ => or_comm

namespace Finding

theorem reports_issue (v : Violation Float) : (violation v).issue.Reports v := by
  cases v <;> exact ⟨rfl, rfl, rfl, rfl⟩

theorem severity_issue_eq_error_iff {f : Finding Float} :
    f.issue.severity = .error ↔ f.violation?.isSome := by
  cases f with
  | pending id => exact iff_of_false nofun nofun
  | violation v => exact iff_of_true (reports_issue v).severity rfl

theorem names_issue_iff {f : Finding Float} {a b : PanelId} :
    f.issue.Names a b ↔ f = .violation (.overlap a b) ∨ f = .violation (.overlap b a) := by
  unfold Issue.Names
  rcases f with id | ⟨id, rect⟩ | ⟨id, other⟩ | total <;> simp [issue]

/-- The first error among the issues reports the first violation among the findings. -/
theorem find?_error_map_issue (fs : List (Finding Float)) :
    (fs.map issue).find? (·.severity = .error) =
      (fs.findSome? violation?).map (issue ∘ violation) := by
  induction fs with
  | nil => rfl
  | cons f fs ih =>
    rw [List.findSome?_cons, List.map_cons]
    cases f with
    | pending id =>
      rw [List.find?_cons_of_neg (by simp [severity_issue_eq_error_iff, violation?])]
      exact ih
    | violation v =>
      rw [List.find?_cons_of_pos (by simp [severity_issue_eq_error_iff, violation?])]
      rfl

end Finding

/-! ### Intersections -/

section Generic

variable [Coordinate α]

theorem Rect.intersects_comm {r s : Rect α} : r.Intersects s ↔ s.Intersects r :=
  and_congr And.comm And.comm

namespace Layout

variable {s : Layout α} {p q : Panel α} {ps : List (Panel α)}

/-! ### The first violation -/

theorem violationAt?_eq_none_iff :
    s.violationAt? p = none ↔
      p.rect.WithinUnit ∧ ∀ q ∈ s.panels, q.id ≠ p.id → ¬ p.rect.Intersects q.rect := by
  unfold violationAt?
  by_cases hp : p.rect.WithinUnit
  · simp [hp]
  · simp [hp]

/-- A layout with panels is valid if and only if they lie in the workspace, no two intersect, and
the covered area is near one. -/
theorem validate_eq_ok_iff (hs : s.panels ≠ []) :
    s.validate = .ok () ↔ (∀ p ∈ s.panels, p.rect.WithinUnit) ∧
      (∀ p ∈ s.panels, ∀ q ∈ s.panels, q.id ≠ p.id → ¬ p.rect.Intersects q.rect) ∧
      Near s.coveredArea 1 := by
  have hnone : s.panels.findSome? s.violationAt? = none ↔
      (∀ p ∈ s.panels, p.rect.WithinUnit) ∧
        ∀ p ∈ s.panels, ∀ q ∈ s.panels, q.id ≠ p.id → ¬ p.rect.Intersects q.rect := by
    rw [List.findSome?_eq_none_iff, ← forall₂_and]
    exact forall₂_congr fun p _ => violationAt?_eq_none_iff
  rw [← and_assoc, ← hnone]
  unfold validate
  cases s.panels.findSome? s.violationAt? with
  | some v => exact iff_of_false nofun nofun
  | none => simp [hs]

/-- What is found first at a panel, given the panels after it. -/
theorem findSome?_findingsAt (p : Panel α) (later : List (Panel α)) :
    (findingsAt p later).findSome? Finding.violation? =
      if ¬ p.rect.WithinUnit then some (.outOfBounds p.id p.rect)
      else (later.find? (p.rect.Intersects ·.rect)).map (.overlap p.id ·.id) := by
  have hpending : (if p.id = .pending then [Finding.pending p.id] else []).findSome?
      (Finding.violation? (α := α)) = none := by
    split <;> rfl
  have hoverlaps : ((later.filter (p.rect.Intersects ·.rect)).map fun q =>
      Finding.violation (α := α) (.overlap p.id q.id)).findSome? Finding.violation? =
        (later.find? (p.rect.Intersects ·.rect)).map (.overlap p.id ·.id) := by
    rw [← List.head?_filterMap, List.filterMap_map, ← List.head?_filter, ← List.head?_map]
    exact congrArg List.head? (congrFun List.filterMap_eq_map' _)
  unfold findingsAt
  rw [List.append_assoc, List.findSome?_append, List.findSome?_append, hpending, hoverlaps,
    Option.none_or]
  by_cases hp : p.rect.WithinUnit
  · rw [if_pos hp, if_neg (not_not_intro hp), List.findSome?_nil, Option.none_or]
  · rw [if_neg hp, if_pos hp]
    rfl

/-- A panel that no earlier one intersects has to be compared with the later ones only. -/
theorem violationAt?_eq_findSome? {before later : List (Panel α)} {p : Panel α}
    (h : s.panels = before ++ p :: later) (hbefore : ∀ q ∈ before, s.violationAt? q = none) :
    s.violationAt? p = (findingsAt p later).findSome? Finding.violation? := by
  have hascending := List.pairwise_append.1 (h ▸ s.ascending)
  have hlater := (List.pairwise_cons.1 hascending.2.1).1
  have hmem : p ∈ s.panels := by simp [h]
  have hnone : before.find? (fun q => decide (q.id ≠ p.id ∧ p.rect.Intersects q.rect)) = none := by
    rw [List.find?_eq_none]
    intro q hq
    rw [decide_eq_true_eq]
    rintro ⟨hid, hintersects⟩
    exact (violationAt?_eq_none_iff.1 (hbefore q hq)).2 p hmem hid.symm
      (Rect.intersects_comm.1 hintersects)
  have hrest : later.find? (fun q => decide (q.id ≠ p.id ∧ p.rect.Intersects q.rect)) =
      later.find? (p.rect.Intersects ·.rect) := by
    rw [← List.head?_filter, ← List.head?_filter]
    refine congrArg List.head? (List.filter_congr fun q hq => ?_)
    rw [decide_eq_decide]
    exact and_iff_right (PanelId.ne_of_lt (hlater q hq)).symm
  rw [findSome?_findingsAt]
  unfold violationAt?
  rw [h, List.find?_append, hnone, Option.none_or, List.find?_cons_of_neg (by simp), hrest]

/-- **Both checks come upon the same violation first**, panel by panel. -/
theorem findSome?_violationAt? (before : List (Panel α)) (h : s.panels = before ++ ps)
    (hbefore : ∀ p ∈ before, s.violationAt? p = none) :
    ps.findSome? s.violationAt? = (panelFindings ps).findSome? Finding.violation? := by
  induction ps generalizing before with
  | nil => rfl
  | cons p later ih =>
    have hfirst := violationAt?_eq_findSome? h hbefore
    rw [List.findSome?_cons, panelFindings, List.findSome?_append, ← hfirst]
    cases hp : s.violationAt? p with
    | some v => rfl
    | none =>
      rw [Option.none_or]
      refine ih (before ++ [p]) (by rw [h, List.append_assoc]; rfl) fun q hq => ?_
      rcases List.mem_append.1 hq with hq | hq
      · exact hbefore q hq
      · rwa [List.mem_singleton.1 hq]

/-- The first violation among all findings. -/
theorem findSome?_findings (s : Layout α) :
    s.findings.findSome? Finding.violation? = (s.panels.findSome? s.violationAt?).or
      (if s.panels.isEmpty ∨ Near s.totalArea 1 then none else some (.coverage s.totalArea)) := by
  unfold findings
  rw [List.findSome?_append, findSome?_violationAt? [] rfl nofun]
  congr 1
  split <;> rfl

/-! ### Overlapping pairs -/

/-- Of the pairs of panels that intersect, this one comes first in the order of the labels, and no
panel up to the first of the two is out of bounds. -/
structure FirstOverlap (s : Layout α) (id other : PanelId) : Prop where
  lt : id < other
  intersect : ∃ p ∈ s.panels, ∃ q ∈ s.panels,
    p.id = id ∧ q.id = other ∧ p.rect.Intersects q.rect
  first : ∀ p ∈ s.panels, ∀ q ∈ s.panels, p.id < q.id →
    p.rect.Intersects q.rect ∨ q.rect.Intersects p.rect →
      id < p.id ∨ id = p.id ∧ (other < q.id ∨ other = q.id)
  inBounds : ∀ p ∈ s.panels, ¬ p.rect.WithinUnit → id < p.id

omit [Coordinate α] in
/-- A panel stands before another one, or its label is not smaller. -/
theorem mem_or_lt_or_eq {before after : List (Panel α)} (h : s.panels = before ++ p :: after)
    (hq : q ∈ s.panels) : q ∈ before ∨ p.id < q.id ∨ p = q := by
  have hascending := List.pairwise_append.1 (h ▸ s.ascending)
  rw [h, List.mem_append, List.mem_cons] at hq
  rcases hq with hq | rfl | hq
  · exact Or.inl hq
  · exact Or.inr (Or.inr rfl)
  · exact Or.inr (Or.inl ((List.pairwise_cons.1 hascending.2.1).1 q hq))

theorem firstOverlap_of_findSome? {id other : PanelId}
    (h : s.panels.findSome? s.violationAt? = some (.overlap id other)) :
    s.FirstOverlap id other := by
  obtain ⟨earlier, p, later, hpanels, hp, hearlier⟩ := List.findSome?_eq_some_iff.1 h
  have hfree := fun q hq => violationAt?_eq_none_iff.1 (hearlier q hq)
  have hmem : p ∈ s.panels := by simp [hpanels]
  -- the panel is within bounds, and the other is the first one that it intersects
  have hwithin : p.rect.WithinUnit := by
    by_contra hout
    rw [violationAt?, if_pos hout] at hp
    cases hp
  rw [violationAt?, if_neg (not_not_intro hwithin), Option.map_eq_some_iff] at hp
  obtain ⟨q, hq, hpq⟩ := hp
  obtain ⟨rfl, rfl⟩ := Violation.overlap.inj hpq
  obtain ⟨hqp, before, after, hpanels', hbefore⟩ := List.find?_eq_some_iff_append.1 hq
  rw [decide_eq_true_eq] at hqp
  have hqmem : q ∈ s.panels := by simp [hpanels']
  refine ⟨?_, ⟨p, hmem, q, hqmem, rfl, rfl, hqp.2⟩, ?_, ?_⟩
  · rcases mem_or_lt_or_eq hpanels hqmem with hq | hlt | rfl
    · exact absurd (Rect.intersects_comm.1 hqp.2) ((hfree q hq).2 p hmem hqp.1.symm)
    · exact hlt
    · exact absurd rfl hqp.1
  · intro p' hp' q' hq' hlt hintersects
    have hintersects : p'.rect.Intersects q'.rect :=
      hintersects.elim id Rect.intersects_comm.1
    have hne := (PanelId.ne_of_lt hlt).symm
    rcases mem_or_lt_or_eq hpanels hp' with hearly | hlt' | rfl
    · exact absurd hintersects ((hfree p' hearly).2 q' hq' hne)
    · exact Or.inl hlt'
    · rcases mem_or_lt_or_eq hpanels' hq' with hearly | hlt' | rfl
      · have hnot := hbefore q' hearly
        simp [hne, hintersects] at hnot
      · exact Or.inr ⟨rfl, Or.inl hlt'⟩
      · exact Or.inr ⟨rfl, Or.inr rfl⟩
  · intro r hr hout
    rcases mem_or_lt_or_eq hpanels hr with hearly | hlt | rfl
    · exact absurd (hfree r hearly).1 hout
    · exact hlt
    · exact absurd hwithin hout

/-! ### Every pair once -/

theorem panel?_of_mem_findingsAt {f : Finding α} (h : f ∈ findingsAt p ps) :
    f.panel? = some p.id := by
  unfold findingsAt at h
  simp only [List.mem_append, List.mem_map] at h
  rcases h with (h | h) | ⟨q, -, rfl⟩
  · split at h
    · rw [List.mem_singleton.1 h]
      rfl
    · cases h
  · split at h
    · cases h
    · rw [List.mem_singleton.1 h]
      rfl
  · rfl

theorem exists_panel?_of_mem_panelFindings {f : Finding α} (h : f ∈ panelFindings ps) :
    ∃ p ∈ ps, f.panel? = some p.id := by
  induction ps with
  | nil => cases h
  | cons p later ih =>
    rcases List.mem_append.1 h with h | h
    · exact ⟨p, List.mem_cons_self, panel?_of_mem_findingsAt h⟩
    · obtain ⟨q, hq, heq⟩ := ih h
      exact ⟨q, List.mem_cons_of_mem p hq, heq⟩

theorem nodup_findingsAt (h : Panel.Ascending ps) : (findingsAt p ps).Nodup := by
  unfold findingsAt
  refine List.nodup_append'.2 ⟨List.nodup_append'.2 ⟨?_, ?_, ?_⟩, ?_, ?_⟩
  · split <;> simp
  · split <;> simp
  · intro f hf hf'
    split at hf <;> split at hf' <;> simp_all
  · refine List.Pairwise.map _ (fun q q' hlt heq => ?_) (h.filter _)
    obtain ⟨-, hid⟩ := Violation.overlap.inj (Finding.violation.inj heq)
    exact PanelId.ne_of_lt hlt hid
  · intro f hf hf'
    obtain ⟨q, -, rfl⟩ := List.mem_map.1 hf'
    rcases List.mem_append.1 hf with hf | hf <;> split at hf <;> simp at hf

/-- **Nothing is found twice.** -/
theorem nodup_panelFindings (h : Panel.Ascending ps) : (panelFindings ps).Nodup := by
  induction ps with
  | nil => exact List.nodup_nil
  | cons p later ih =>
    obtain ⟨hlater, hascending⟩ := List.pairwise_cons.1 h
    refine List.nodup_append'.2 ⟨nodup_findingsAt hascending, ih hascending, fun f hf hf' => ?_⟩
    obtain ⟨q, hq, heq⟩ := exists_panel?_of_mem_panelFindings hf'
    rw [panel?_of_mem_findingsAt hf] at heq
    exact PanelId.ne_of_lt (hlater q hq) (Option.some.inj heq)

theorem overlap_mem_findingsAt_iff {a b : PanelId} :
    .violation (.overlap a b) ∈ findingsAt p ps ↔
      p.id = a ∧ ∃ q ∈ ps, q.id = b ∧ p.rect.Intersects q.rect := by
  have hpending : .violation (.overlap a b) ∉
      (if p.id = .pending then [Finding.pending (α := α) p.id] else []) := by
    split <;> simp
  have hbounds : .violation (.overlap a b) ∉
      (if p.rect.WithinUnit then [] else [Finding.violation (.outOfBounds p.id p.rect)]) := by
    split <;> simp
  unfold findingsAt
  rw [List.mem_append, List.mem_append, or_iff_right (not_or.2 ⟨hpending, hbounds⟩), List.mem_map]
  constructor
  · rintro ⟨q, hq, heq⟩
    obtain ⟨rfl, rfl⟩ := Violation.overlap.inj (Finding.violation.inj heq)
    obtain ⟨hq, hintersects⟩ := List.mem_filter.1 hq
    exact ⟨rfl, q, hq, rfl, by simpa using hintersects⟩
  · rintro ⟨rfl, q, hq, rfl, hintersects⟩
    exact ⟨q, List.mem_filter.2 ⟨hq, by simpa using hintersects⟩, rfl⟩

/-- The pairs that are found are those that intersect, the smaller label first. -/
theorem overlap_mem_panelFindings_iff (h : Panel.Ascending ps) {a b : PanelId} :
    .violation (.overlap a b) ∈ panelFindings ps ↔
      a < b ∧ ∃ p ∈ ps, ∃ q ∈ ps, p.id = a ∧ q.id = b ∧ p.rect.Intersects q.rect := by
  induction ps with
  | nil => simp [panelFindings]
  | cons p later ih =>
    obtain ⟨hlater, hascending⟩ := List.pairwise_cons.1 h
    rw [panelFindings, List.mem_append, overlap_mem_findingsAt_iff, ih hascending]
    constructor
    · rintro (⟨rfl, q, hq, rfl, hintersects⟩ | ⟨hlt, q, hq, r, hr, rfl, rfl, hintersects⟩)
      · exact ⟨hlater q hq, p, List.mem_cons_self, q, List.mem_cons_of_mem p hq, rfl, rfl,
          hintersects⟩
      · exact ⟨hlt, q, List.mem_cons_of_mem p hq, r, List.mem_cons_of_mem p hr, rfl, rfl,
          hintersects⟩
    · rintro ⟨hlt, q, hq, r, hr, rfl, rfl, hintersects⟩
      -- the panel with the larger label is not the first one
      have hrlater : r ∈ later := by
        rcases List.mem_cons.1 hr with rfl | hr
        · rcases List.mem_cons.1 hq with rfl | hq
          · exact absurd hlt (PanelId.lt_irrefl _)
          · exact absurd (PanelId.lt_trans hlt (hlater q hq)) (PanelId.lt_irrefl _)
        · exact hr
      rcases List.mem_cons.1 hq with rfl | hq
      · exact Or.inl ⟨rfl, r, hrlater, rfl, hintersects⟩
      · exact Or.inr ⟨hlt, q, hq, r, hrlater, rfl, rfl, hintersects⟩

theorem overlap_mem_findings_iff {a b : PanelId} :
    .violation (.overlap a b) ∈ s.findings ↔
      a < b ∧ ∃ p ∈ s.panels, ∃ q ∈ s.panels,
        p.id = a ∧ q.id = b ∧ p.rect.Intersects q.rect := by
  have hcoverage : .violation (.overlap a b) ∉ (if s.panels.isEmpty ∨ Near s.totalArea 1 then []
      else [Finding.violation (.coverage s.totalArea)]) := by
    split <;> simp
  unfold findings
  rw [List.mem_append, or_iff_left hcoverage, overlap_mem_panelFindings_iff s.ascending]

theorem nodup_findings : s.findings.Nodup := by
  unfold findings
  refine List.nodup_append'.2 ⟨nodup_panelFindings s.ascending, ?_, fun f hf hf' => ?_⟩
  · split <;> simp
  · obtain ⟨p, -, heq⟩ := exists_panel?_of_mem_panelFindings hf
    split at hf'
    · cases hf'
    · rw [List.mem_singleton.1 hf'] at heq
      cases heq

end Layout

end Generic

/-! ### Both checks -/

namespace Layout

variable {s : Layout Float} {p q : Panel Float}

theorem near_coveredArea_iff : Near s.coveredArea 1 ↔ Near s.totalArea 1 :=
  Binary64.near_sum_iff _

theorem validate_eq_ok_iff_findings :
    s.validate = .ok () ↔ s.findings.findSome? Finding.violation? = none := by
  rw [findSome?_findings]
  unfold validate
  cases s.panels.findSome? s.violationAt? with
  | some v => exact iff_of_false nofun nofun
  | none =>
    simp only [near_coveredArea_iff, Option.none_or]
    split <;> simp

/-- The violation at which the first check stops is the first one that the second check finds; the
covered area may differ in the sign of a zero. -/
theorem exists_violation_of_validate {v : Violation Float} (h : s.validate = .error v) :
    ∃ w, s.findings.findSome? Finding.violation? = some w ∧
      ∀ i : Issue, i.Reports w → i.Reports v := by
  rw [findSome?_findings]
  unfold validate at h
  cases hv : s.panels.findSome? s.violationAt? with
  | some w =>
    rw [hv] at h
    obtain rfl : w = v := Except.error.inj h
    exact ⟨w, rfl, fun i hi => hi⟩
  | none =>
    simp only [hv, near_coveredArea_iff] at h
    split at h
    · cases h
    · next hnot =>
      obtain rfl : .coverage s.coveredArea = v := Except.error.inj h
      refine ⟨.coverage s.totalArea, by rw [Option.none_or, if_neg hnot], ?_⟩
      rintro i ⟨hseverity, hcode, hpanel, hrelated⟩
      exact ⟨hseverity, hcode, hpanel, hrelated⟩

theorem find?_error_issues :
    s.report.issues.find? (·.severity = .error) =
      (s.findings.findSome? Finding.violation?).map (Finding.issue ∘ .violation) :=
  Finding.find?_error_map_issue s.findings

theorem hasErrors_report :
    s.report.hasErrors = (s.findings.findSome? Finding.violation?).isSome := by
  rw [← Option.isSome_map (f := Finding.issue ∘ .violation), ← find?_error_issues]
  exact List.isSome_find?.symm

theorem firstOverlap_of_validate {id other : PanelId}
    (h : s.validate = .error (.overlap id other)) : s.FirstOverlap id other := by
  refine firstOverlap_of_findSome? ?_
  unfold validate at h
  cases hv : s.panels.findSome? s.violationAt? with
  | some w =>
    rw [hv] at h
    exact congrArg some (Except.error.inj h)
  | none =>
    rw [hv] at h
    dsimp only at h
    split at h <;> cases h

theorem countP_names_of_lt (hp : p ∈ s.panels) (hq : q ∈ s.panels) (hlt : p.id < q.id) :
    s.report.issues.countP (·.Names p.id q.id) = if p.rect.Intersects q.rect then 1 else 0 := by
  -- the pair with the larger label first is not among the findings
  have hcount : s.report.issues.countP (·.Names p.id q.id) =
      s.findings.count (.violation (.overlap p.id q.id)) := by
    unfold report
    rw [List.countP_map]
    refine List.countP_congr fun f hf => ?_
    have hne : f ≠ .violation (.overlap q.id p.id) := by
      rintro rfl
      exact PanelId.lt_irrefl _ (PanelId.lt_trans hlt (overlap_mem_findings_iff.1 hf).1)
    simp [Finding.names_issue_iff, hne]
  have hmem : .violation (.overlap p.id q.id) ∈ s.findings ↔ p.rect.Intersects q.rect := by
    rw [overlap_mem_findings_iff]
    constructor
    · rintro ⟨-, p', hp', q', hq', hpid, hqid, hintersects⟩
      rwa [s.eq_of_id_eq hp' hp hpid, s.eq_of_id_eq hq' hq hqid] at hintersects
    · exact fun h => ⟨hlt, p, hp, q, hq, rfl, rfl, h⟩
  rw [hcount, nodup_findings.count]
  simp only [hmem]

theorem countP_names (hp : p ∈ s.panels) (hq : q ∈ s.panels) (hne : p.id ≠ q.id) :
    s.report.issues.countP (·.Names p.id q.id) =
      if p.rect.Intersects q.rect ∨ q.rect.Intersects p.rect then 1 else 0 := by
  simp only [Rect.intersects_comm (r := q.rect), or_self]
  by_cases hlt : p.id < q.id
  · exact countP_names_of_lt hp hq hlt
  · simp only [Issue.names_comm (a := p.id), Rect.intersects_comm (r := p.rect)]
    exact countP_names_of_lt hq hp (PanelId.lt_of_not_lt_of_ne hlt hne)

theorem exists_of_overlap_mem_issues {i : Issue} (hi : i ∈ s.report.issues)
    (hcode : i.code = .overlap) : ∃ p ∈ s.panels, ∃ q ∈ s.panels,
      p.id < q.id ∧ i.panel = some p.id ∧ i.related = some q.id ∧ p.rect.Intersects q.rect := by
  obtain ⟨f, hf, rfl⟩ := List.mem_map.1 hi
  rcases f with id | ⟨id, rect⟩ | ⟨id, other⟩ | total
  · cases hcode
  · cases hcode
  · obtain ⟨hlt, p, hp, q, hq, rfl, rfl, hintersects⟩ := overlap_mem_findings_iff.1 hf
    exact ⟨p, hp, q, hq, hlt, rfl, rfl, hintersects⟩
  · cases hcode

/-- **The two checks agree**, for all numbers in double precision.  A layout is accepted if and only
if its report has no errors; the error of the first check is the first one in the report, and an
overlap among them names the first pair that intersects; and the report has one issue for each pair
of panels that intersect in either order, and no other overlap. -/
theorem checks_agree (s : Layout Float) :
    (s.validate = .ok () ↔ s.report.hasErrors = false) ∧
      (∀ v, s.validate = .error v →
        ∃ i, s.report.issues.find? (·.severity = .error) = some i ∧ i.Reports v) ∧
      (∀ id other, s.validate = .error (.overlap id other) → s.FirstOverlap id other) ∧
      (∀ p ∈ s.panels, ∀ q ∈ s.panels, p.id ≠ q.id →
        s.report.issues.countP (·.Names p.id q.id) =
          if p.rect.Intersects q.rect ∨ q.rect.Intersects p.rect then 1 else 0) ∧
      ∀ i ∈ s.report.issues, i.code = .overlap → ∃ p ∈ s.panels, ∃ q ∈ s.panels,
        p.id < q.id ∧ i.panel = some p.id ∧ i.related = some q.id ∧ p.rect.Intersects q.rect := by
  refine ⟨?_, fun v hv => ?_, fun id other => firstOverlap_of_validate,
    fun p hp q hq => countP_names hp hq, fun i hi => exists_of_overlap_mem_issues hi⟩
  · rw [validate_eq_ok_iff_findings, hasErrors_report, Option.isSome_eq_false_iff, Option.isNone_iff_eq_none]
  · obtain ⟨w, hw, hreports⟩ := exists_violation_of_validate hv
    rw [find?_error_issues, hw]
    exact ⟨_, rfl, hreports _ (Finding.reports_issue w)⟩

/-- Four panels in double precision: the last one is out of bounds, and the two before it
intersect. -/
def crowded : Layout Float :=
  (empty .horizontal).putAll [⟨⟨1⟩, ⟨0, 0, 0.5, 1⟩⟩, ⟨⟨2⟩, ⟨0.5, 0, 0.5, 0.5⟩⟩,
    ⟨⟨3⟩, ⟨0.5, 0.25, 0.5, 0.75⟩⟩, ⟨⟨4⟩, ⟨2, 0, 1, 0 / 0⟩⟩]

theorem checks_agree_crowded :
    crowded.validate = .error (.overlap ⟨2⟩ ⟨3⟩) ∧ crowded.FirstOverlap ⟨2⟩ ⟨3⟩ ∧
      (∃ i, crowded.report.issues.find? (·.severity = .error) = some i ∧
        i.Reports (.overlap ⟨2⟩ ⟨3⟩ : Violation Float)) ∧
      crowded.report.issues.countP (·.Names ⟨2⟩ ⟨3⟩) = 1 := by
  have hvalidate : crowded.validate = .error (.overlap ⟨2⟩ ⟨3⟩) := by decide +kernel
  have h := checks_agree crowded
  refine ⟨hvalidate, h.2.2.1 _ _ hvalidate, h.2.1 _ hvalidate, ?_⟩
  have hpair := h.2.2.2.1 ⟨⟨2⟩, ⟨0.5, 0, 0.5, 0.5⟩⟩ (by decide +kernel)
    ⟨⟨3⟩, ⟨0.5, 0.25, 0.5, 0.75⟩⟩ (by decide +kernel) (by decide)
  rwa [if_pos (by decide +kernel)] at hpair

end Layout

end Mosaic
