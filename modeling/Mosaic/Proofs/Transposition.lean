import Mosaic.Layout.Validity
import Mosaic.Proofs.Correspondence
import Mosaic.Proofs.Doubles
import Mosaic.Proofs.HandleList

/-!
# Transposition

Mirroring the workspace at its diagonal exchanges left with top, columns with rows and horizontal
lines with vertical ones.  Every rule for one direction is the rule for the other direction seen in
the mirror, so each operation gives the mirror image of what it gives for the layout itself.
Nothing is assumed of the numbers, except that an area does not depend on the order of the two
extents that it is the product of.

* `Layout.transpose`: the mirror image of a layout.
* `Layout.validate_transpose`, `Layout.bandCount_transpose`, `Layout.remove_transpose`,
  `Layout.candidatesBy_transpose`, `Layout.filter_handles_transpose`: one operation each.
* `Layout.transpose_operations`: all of them together.
-/

namespace Mosaic

open Coordinate

variable {α : Type}

/-! ### Mirror images -/

/-- The point with its coordinates exchanged. -/
def Point.transpose (p : Point α) : Point α :=
  ⟨p.y, p.x⟩

/-- The rectangle with its two directions exchanged. -/
def Rect.transpose (r : Rect α) : Rect α :=
  ⟨r.y, r.x, r.height, r.width⟩

/-- The panel with its rectangle mirrored. -/
def Panel.transpose (p : Panel α) : Panel α :=
  ⟨p.id, p.rect.transpose⟩

/-- The neighbour across the mirrored boundary. -/
def Neighbour.transpose (n : Neighbour α) : Neighbour α :=
  ⟨n.panel.transpose, n.boundary.flip, n.side⟩

/-- The flank across the mirrored boundary. -/
def Flank.transpose (f : Flank α) : Flank α :=
  ⟨f.boundary.flip, f.side, f.panels.map Panel.transpose⟩

/-- The handle on the mirrored boundary, with the same panels. -/
def Handle.transpose (h : Handle α) : Handle α :=
  ⟨h.boundary.flip, h.position.transpose, h.panels⟩

/-- The violation, with its rectangle mirrored. -/
def Violation.transpose : Violation α → Violation α
  | .outOfBounds id rect => .outOfBounds id rect.transpose
  | .overlap id other => .overlap id other
  | .coverage total => .coverage total

/-- The refusal, with columns and rows exchanged. -/
def Refusal.transpose : Refusal → Refusal
  | .noCapacity columns rows => .noCapacity rows columns
  | e => e

theorem Panel.Ascending.transpose {ps : List (Panel α)} (h : Ascending ps) :
    Ascending (ps.map Panel.transpose) :=
  List.pairwise_map.2 h

/-- The layout with every panel mirrored, and the other orientation. -/
def Layout.transpose (s : Layout α) : Layout α :=
  ⟨s.orientation.flip, s.panels.map Panel.transpose, s.ascending.transpose⟩

@[simp] theorem Panel.id_transpose (p : Panel α) : p.transpose.id = p.id := rfl

@[simp] theorem Panel.rect_transpose (p : Panel α) : p.transpose.rect = p.rect.transpose := rfl

@[simp] theorem Layout.panels_transpose (s : Layout α) :
    s.transpose.panels = s.panels.map Panel.transpose := rfl

@[simp] theorem Layout.orientation_transpose (s : Layout α) :
    s.transpose.orientation = s.orientation.flip := rfl

@[simp] theorem Layout.size_transpose (s : Layout α) : s.transpose.size = s.size :=
  List.length_map _

theorem Orientation.flip_inj {o p : Orientation} : o.flip = p.flip ↔ o = p := by
  cases o <;> cases p <;> decide

/-! ### Points and rectangles -/

@[simp] theorem Point.transpose_onLine (o : Orientation) (l p : α) :
    (onLine o l p).transpose = onLine o.flip l p := by
  cases o <;> rfl

theorem Point.line_transpose (p : Point α) (o : Orientation) :
    p.transpose.line o.flip = p.line o := by
  cases o <;> rfl

namespace Rect

@[simp] theorem along_transpose (r : Rect α) (o : Orientation) :
    r.transpose.along o = r.along o.flip := by
  cases o <;> rfl

theorem along_transpose_flip (r : Rect α) (o : Orientation) :
    r.transpose.along o.flip = r.along o := by
  rw [along_transpose, Orientation.flip_flip]

@[simp] theorem transpose_ofSpans (o : Orientation) (s t : Span α) :
    (ofSpans o s t).transpose = ofSpans o.flip s t := by
  cases o <;> rfl

variable [Coordinate α]

theorem near_transpose {r s : Rect α} : r.transpose.Near s.transpose ↔ r.Near s := by
  unfold Near transpose
  tauto

theorem withinUnit_transpose {r : Rect α} : r.transpose.WithinUnit ↔ r.WithinUnit := by
  unfold WithinUnit
  rw [along_transpose, along_transpose]
  exact And.comm

theorem intersects_transpose {r s : Rect α} : r.transpose.Intersects s.transpose ↔ r.Intersects s := by
  unfold Intersects
  simp only [along_transpose]
  exact And.comm

theorem sideTouched_transpose (anchor r : Rect α) (b : Orientation) :
    anchor.transpose.sideTouched r.transpose b.flip = anchor.sideTouched r b := by
  unfold sideTouched
  simp only [along_transpose, Orientation.flip_flip]

theorem split_transpose (r : Rect α) (cut : Orientation) :
    r.transpose.split cut.flip = ((r.split cut).1.transpose, (r.split cut).2.transpose) := by
  unfold split
  simp only [along_transpose, Orientation.flip_flip, transpose_ofSpans]

theorem midpointBetween_transpose (r s : Rect α) (b : Orientation) :
    r.transpose.midpointBetween s.transpose b.flip = (r.midpointBetween s b).transpose := by
  unfold midpointBetween
  simp only [along_transpose, Orientation.flip_flip, Point.transpose_onLine]

theorem growOver_transpose (r s : Rect α) (b : Orientation) :
    r.transpose.growOver s.transpose b.flip = (r.growOver s b).transpose := by
  unfold growOver
  simp only [along_transpose, Orientation.flip_flip, transpose_ofSpans]

theorem inBand_transpose {r band : Rect α} {line : Orientation} :
    r.transpose.InBand band.transpose line.flip ↔ r.InBand band line := by
  unfold InBand
  simp only [along_transpose, Orientation.flip_flip]

theorem area_transpose (hmul : ∀ a b : α, a * b = b * a) (r : Rect α) :
    r.transpose.area = r.area :=
  hmul _ _

end Rect

/-! ### Edits -/

namespace Layout

variable {s : Layout α} {p : Panel α} {id : PanelId}

theorem find?_transpose (s : Layout α) (id : PanelId) :
    s.transpose.find? id = (s.find? id).map Rect.transpose := by
  unfold find?
  rw [panels_transpose, List.find?_map, Option.map_map, Option.map_map]
  rfl

theorem contains_transpose (s : Layout α) (id : PanelId) :
    s.transpose.contains id = s.contains id := by
  unfold contains
  rw [find?_transpose, Option.isSome_map]

theorem transpose_erase (s : Layout α) (id : PanelId) :
    (s.erase id).transpose = s.transpose.erase id := by
  refine ext_panels rfl ?_
  change (s.panels.filter _).map _ = (s.panels.map _).filter _
  rw [List.filter_map]
  rfl

theorem transpose_put (s : Layout α) (p : Panel α) :
    (s.put p).transpose = s.transpose.put p.transpose := by
  refine ext_find? rfl fun id => ?_
  rw [find?_transpose, find?_put, find?_put, find?_transpose]
  exact apply_ite _ _ _ _

theorem transpose_putAll (s : Layout α) (ps : List (Panel α)) :
    (s.putAll ps).transpose = s.transpose.putAll (ps.map Panel.transpose) := by
  unfold putAll
  induction ps generalizing s with
  | nil => rfl
  | cons p ps ih => rw [List.foldl_cons, ih, transpose_put, List.map_cons, List.foldl_cons]

variable [Coordinate α]

theorem transpose_single (id : PanelId) (o : Orientation) :
    (single id o : Layout α).transpose = single id o.flip :=
  transpose_put _ _

/-! ### Validity -/

theorem violationAt?_transpose (s : Layout α) (p : Panel α) :
    s.transpose.violationAt? p.transpose = (s.violationAt? p).map Violation.transpose := by
  unfold violationAt?
  simp only [Panel.rect_transpose, Rect.withinUnit_transpose, Panel.id_transpose, panels_transpose]
  split
  · rfl
  · rw [List.find?_map, Option.map_map, Option.map_map]
    simp only [Function.comp_def, Panel.rect_transpose, Panel.id_transpose,
      Rect.intersects_transpose]
    rfl

theorem coveredArea_transpose (hmul : ∀ a b : α, a * b = b * a) (s : Layout α) :
    s.transpose.coveredArea = s.coveredArea := by
  unfold coveredArea
  rw [panels_transpose, List.map_map]
  simp only [Function.comp_def, Panel.rect_transpose, Rect.area_transpose hmul]

/-- **The first violation of the mirror image is that of the layout.** -/
theorem validate_transpose (hmul : ∀ a b : α, a * b = b * a) (s : Layout α) :
    s.transpose.validate = s.validate.mapError Violation.transpose := by
  have hviolation : s.transpose.violationAt? ∘ Panel.transpose =
      Option.map Violation.transpose ∘ s.violationAt? := funext s.violationAt?_transpose
  unfold validate
  rw [coveredArea_transpose hmul, panels_transpose, List.findSome?_map, hviolation,
    List.isEmpty_map, ← List.map_findSome?]
  cases s.panels.findSome? s.violationAt? with
  | some v => rfl
  | none =>
    simp only [Option.map_none]
    split <;> rfl

/-! ### Occupancy -/

/-- **Columns of the mirror image are rows of the layout.** -/
theorem bandCount_transpose (s : Layout α) (line : Orientation) (p : Panel α) :
    s.transpose.bandCount line.flip p.transpose = s.bandCount line p := by
  unfold bandCount
  rw [panels_transpose, List.countP_map]
  simp only [Function.comp_def, Panel.rect_transpose, Rect.inBand_transpose]

theorem crossedAt_transpose (s : Layout α) (line : Orientation) (x : α) :
    s.transpose.crossedAt line.flip x = s.crossedAt line x := by
  unfold crossedAt
  rw [panels_transpose, List.countP_map]
  simp only [Function.comp_def, Panel.rect_transpose, Rect.along_transpose, Orientation.flip_flip]

theorem crossings_transpose (s : Layout α) (line : Orientation) (r : Rect α) :
    s.transpose.crossings line.flip r.transpose = s.crossings line r := by
  have hcrossed : s.transpose.crossedAt line.flip = s.crossedAt line :=
    funext (s.crossedAt_transpose line)
  unfold crossings
  rw [panels_transpose, List.map_map, hcrossed]
  simp only [Function.comp_def, Panel.rect_transpose, Rect.along_transpose, Orientation.flip_flip]

theorem occupancy_transpose (s : Layout α) (line : Orientation) (p : Panel α) :
    s.transpose.occupancy line.flip p.transpose = s.occupancy line p := by
  unfold occupancy
  rw [bandCount_transpose, Panel.rect_transpose, crossings_transpose]

/-! ### Candidates -/

variable {limits : Limits}

theorem admits_transpose {cut : Orientation} :
    s.transpose.Admits limits.swap p.transpose cut.flip ↔ s.Admits limits p cut := by
  unfold Admits
  rw [occupancy_transpose, Limits.swap_onLine, Orientation.flip_flip]

omit [Coordinate α] in
theorem transpose_withHalves (s : Layout α) (id : PanelId) (kept created : Rect α) :
    (s.withHalves id kept created).transpose =
      s.transpose.withHalves id kept.transpose created.transpose :=
  transpose_putAll _ _

theorem halvings_transpose (s : Layout α) (p : Panel α) (cut : Orientation) :
    s.transpose.halvings p.transpose cut.flip = (s.halvings p cut).map transpose := by
  unfold halvings
  rw [Panel.rect_transpose, Rect.split_transpose]
  simp only [Rect.near_transpose, List.map_cons, transpose_withHalves, Panel.id_transpose]
  split <;> simp only [List.map_nil, List.map_cons, transpose_withHalves]

/-- Every layout that halves one panel, in label order, the cuts of each panel taken in the given
order. -/
def candidatesBy (cuts : List Orientation) (s : Layout α) (limits : Limits) :
    Except Refusal (List (Layout α)) :=
  if ¬ limits.Roomy then .error (.noCapacity limits.columns limits.rows)
  else if s.contains .pending then .error .stillPending
  else if limits.capacity < s.size then .error (.overCapacity s.size limits.capacity)
  else if s.size = limits.capacity then .ok []
  else .ok (s.panels.flatMap fun p => (cuts.filter (s.Admits limits p)).flatMap (s.halvings p))

theorem candidates_eq_candidatesBy (s : Layout α) (limits : Limits) :
    s.candidates limits = s.candidatesBy [.vertical, .horizontal] limits := rfl

theorem flatMap_halvings_transpose (cuts : List Orientation) (s : Layout α) (limits : Limits)
    (p : Panel α) :
    ((cuts.map Orientation.flip).filter (s.transpose.Admits limits.swap p.transpose)).flatMap
        (s.transpose.halvings p.transpose) =
      ((cuts.filter (s.Admits limits p)).flatMap (s.halvings p)).map transpose := by
  rw [List.filter_map, List.flatMap_map, List.map_flatMap]
  simp only [Function.comp_def, halvings_transpose, admits_transpose]

/-- **The candidates of the mirror image are the mirror images of the candidates**, the cuts of each
panel taken in the mirrored order. -/
theorem candidatesBy_transpose (cuts : List Orientation) (s : Layout α) (limits : Limits) :
    s.transpose.candidatesBy (cuts.map Orientation.flip) limits.swap =
      ((s.candidatesBy cuts limits).mapError Refusal.transpose).map (·.map transpose) := by
  have hroomy : limits.swap.Roomy ↔ limits.Roomy := And.comm
  have hcapacity : limits.swap.capacity = limits.capacity := Nat.mul_comm _ _
  unfold candidatesBy
  rw [contains_transpose, size_transpose, hcapacity, if_congr (not_congr hroomy) rfl rfl]
  split_ifs
  · rfl
  · rfl
  · rfl
  · simp only [panels_transpose, List.flatMap_map, flatMap_halvings_transpose, Except.mapError,
      Except.map, List.map_flatMap]
  · rfl

/-! ### Removals -/

theorem flank_transpose (rest : Layout α) (p : Panel α) (b : Orientation) (side : Side) :
    rest.transpose.flank p.transpose b.flip side = (rest.flank p b side).transpose := by
  have hpanels : (rest.transpose.flank p.transpose b.flip side).panels =
      (rest.flank p b side).panels.map Panel.transpose := by
    rw [flank_panels, flank_panels, panels_transpose, List.filter_map]
    simp only [Function.comp_def, Panel.id_transpose, Panel.rect_transpose,
      Rect.sideTouched_transpose]
  exact congrArg (Flank.mk b.flip side) hpanels

end Layout

namespace Flank

variable [Coordinate α] {f g : Flank α} {r : Rect α}

theorem area_transpose (hmul : ∀ a b : α, a * b = b * a) (f : Flank α) :
    f.transpose.area = f.area := by
  unfold area transpose
  rw [List.map_map]
  simp only [Function.comp_def, Panel.rect_transpose, Rect.area_transpose hmul]

theorem covered_transpose (f : Flank α) : f.transpose.covered = f.covered := by
  unfold covered transpose
  rw [List.map_map]
  simp only [Function.comp_def, Panel.rect_transpose, Rect.along_transpose_flip]

theorem usable_transpose : f.transpose.Usable r.transpose ↔ f.Usable r := by
  unfold Usable
  rw [covered_transpose]
  unfold transpose
  rw [Rect.along_transpose_flip, ne_eq, List.map_eq_nil_iff]

theorem isTwin_transpose : f.transpose.IsTwin r.transpose ↔ f.IsTwin r := by
  unfold IsTwin transpose
  rcases f.panels with _ | ⟨p, _ | ⟨q, ps⟩⟩
  · rfl
  · simp only [List.map_cons, List.map_nil, Panel.rect_transpose, Rect.along_transpose,
      Orientation.flip_flip]
  · rfl

theorem compare_transpose (hmul : ∀ a b : α, a * b = b * a) (f g : Flank α) :
    f.transpose.compare g.transpose = f.compare g := by
  unfold compare
  rw [area_transpose hmul, area_transpose hmul]
  unfold transpose
  simp only [List.length_map]

end Flank

namespace Layout

variable [Coordinate α] {s : Layout α}

theorem flanksMatch_transpose (hmul : ∀ a b : α, a * b = b * a) (rest : Layout α) (p : Panel α) :
    FlanksMatch (fun f g => g = f.transpose) Orientation.flip rest p rest.transpose p.transpose where
  orientation := rfl
  flip _ := rfl
  flank b side := rest.flank_transpose p b side
  usable := by
    rintro f _ rfl
    exact Flank.usable_transpose.symm
  isTwin := by
    rintro f _ rfl -
    exact Flank.isTwin_transpose.symm
  compare := by
    rintro f _ f' _ rfl rfl - -
    exact (Flank.compare_transpose hmul f f').symm

theorem heirs?_transpose (hmul : ∀ a b : α, a * b = b * a) (rest : Layout α) (p : Panel α) :
    rest.transpose.heirs? p.transpose = (rest.heirs? p).map Flank.transpose := by
  have h := (flanksMatch_transpose hmul rest p).heirs?
  generalize rest.heirs? p = heirs, rest.transpose.heirs? p.transpose = heirs' at h ⊢
  cases h with
  | none => rfl
  | some heq => exact congrArg some heq.2

theorem transpose_handOver (rest : Layout α) (r : Rect α) (f : Flank α) :
    (rest.handOver r f).transpose = rest.transpose.handOver r.transpose f.transpose := by
  unfold handOver Flank.transpose
  rw [transpose_putAll, List.map_map, List.map_map]
  simp only [Function.comp_def, Panel.transpose, Rect.growOver_transpose]

/-- **Removing a panel from the mirror image gives the mirror image of the removal**, or the same
refusal. -/
theorem remove_transpose (hmul : ∀ a b : α, a * b = b * a) (s : Layout α) (id : PanelId) :
    s.transpose.remove id = (s.remove id).map transpose := by
  cases hfind : s.find? id with
  | none =>
    have hfind' : s.transpose.find? id = none := by rw [find?_transpose, hfind, Option.map_none]
    rw [remove_of_find?_eq_none hfind, remove_of_find?_eq_none hfind']
    rfl
  | some r =>
    have hp : (⟨id, r⟩ : Panel α) ∈ s.panels := find?_eq_some_iff.1 hfind
    have heq := remove_eq hp
    have heq' := remove_eq (s := s.transpose) (List.mem_map_of_mem hp)
    rw [Panel.id_transpose, ← transpose_erase, heirs?_transpose hmul, panels_transpose] at heq'
    rw [heq, heq']
    rcases (s.erase id).panels with _ | ⟨p, _ | ⟨q, ps⟩⟩
    · rfl
    · exact congrArg Except.ok (transpose_single p.id s.orientation).symm
    · cases (s.erase id).heirs? ⟨id, r⟩ with
      | none => rfl
      | some f => exact congrArg Except.ok (transpose_handOver _ _ _).symm

end Layout

/-! ### Handles -/

namespace Handle

variable [Coordinate α] {h k : Handle α} {b : Orientation}

omit [Coordinate α] in
theorem line_transpose (h : Handle α) : h.transpose.line = h.line :=
  Point.line_transpose _ _

theorem near_position_transpose :
    h.transpose.position.Near k.transpose.position ↔ h.position.Near k.position :=
  And.comm

theorem collinear_transpose : h.transpose.Collinear k.transpose ↔ h.Collinear k := by
  unfold Collinear
  rw [line_transpose, line_transpose]
  exact and_congr_left fun _ => Orientation.flip_inj

theorem coincides_transpose : h.transpose.Coincides k.transpose ↔ h.Coincides k :=
  and_congr Orientation.flip_inj near_position_transpose

theorem transpose_between (p : Panel α) (n : Neighbour α) :
    between p.transpose n.transpose = (between p n).transpose := by
  unfold between Neighbour.transpose Panel.transpose transpose
  simp only [Rect.midpointBetween_transpose]

omit [Coordinate α] in
theorem transpose_connectAll (h : Handle α) (hs : List (Handle α)) :
    h.transpose.connectAll (hs.map transpose) = (h.connectAll hs).transpose := by
  unfold connectAll
  rw [List.flatMap_map]
  rfl

theorem distinct_map_transpose (hs : List (Handle α)) :
    distinct (hs.map transpose) = (distinct hs).map transpose :=
  foldl_keepFirst_nil_map fun _ _ _ _ => coincides_transpose

omit [Coordinate α] in
theorem boundary_transpose_eq_iff : h.transpose.boundary = b.flip ↔ h.boundary = b :=
  Orientation.flip_inj

theorem lines_transpose (b : Orientation) (hs : List (Handle α)) :
    lines b.flip (hs.map transpose) = lines b hs := by
  rw [lines_eq, lines_eq, List.filter_map, List.map_map]
  simp only [Function.comp_def, line_transpose, boundary_transpose_eq_iff]

theorem lineIndex?_transpose (b : Orientation) (ls : List α) (h : Handle α) :
    lineIndex? b.flip ls h.transpose = lineIndex? b ls h := by
  unfold lineIndex?
  rw [line_transpose]
  exact if_congr boundary_transpose_eq_iff rfl rfl

theorem unified_transpose (b : Orientation) (hs : List (Handle α)) (h : Handle α) :
    unified b.flip (hs.map transpose) h.transpose = (unified b hs h).transpose := by
  unfold unified
  rw [lines_transpose, lineIndex?_transpose]
  cases lineIndex? b (lines b hs) h with
  | none => rfl
  | some i =>
    simp only [List.filter_map, List.flatMap_map, Function.comp_def, lineIndex?_transpose]
    rfl

end Handle

namespace Layout

variable [Coordinate α]

theorem filter_neighbours_transpose (s : Layout α) (p : Panel α) (b : Orientation) :
    (s.transpose.neighbours p.transpose Orientation.all).filter (·.boundary = b.flip) =
      ((s.neighbours p Orientation.all).filter (·.boundary = b)).map Neighbour.transpose := by
  rw [filter_neighbours, filter_neighbours, panels_transpose, List.filter_map, List.filterMap_map,
    List.map_filterMap]
  simp only [Function.comp_def, Panel.id_transpose, Panel.rect_transpose, Rect.sideTouched_transpose,
    Option.map_map]
  rfl

theorem filter_handlesAt_transpose (s : Layout α) (p : Panel α) (b : Orientation) :
    (s.transpose.handlesAt p.transpose).filter (·.boundary = b.flip) =
      ((s.handlesAt p).filter (·.boundary = b)).map Handle.transpose := by
  rw [filter_handlesAt, filter_handlesAt, filter_neighbours_transpose]
  simp only [List.map_map, Function.comp_def, Handle.transpose_between]
  refine List.map_congr_left fun n _ => ?_
  rw [← Handle.transpose_connectAll, List.filter_map, List.filter_map, List.map_map]
  simp only [Function.comp_def, Handle.near_position_transpose, Handle.collinear_transpose]

/-- **The handles of the mirror image on the boundaries of one orientation are, in order, the mirror
images of those on the boundaries of the other.** -/
theorem filter_handles_transpose (s : Layout α) (workspace b : Orientation) :
    (s.transpose.handles workspace.flip).filter (·.boundary = b.flip) =
      ((s.handles workspace).filter (·.boundary = b)).map Handle.transpose := by
  have hdistinct : ∀ b : Orientation,
      Handle.distinct (s.transpose.panels.flatMap fun p =>
          (s.transpose.handlesAt p).filter (·.boundary = b.flip)) =
        (Handle.distinct (s.panels.flatMap fun p =>
          (s.handlesAt p).filter (·.boundary = b))).map Handle.transpose := by
    intro b
    rw [← Handle.distinct_map_transpose, panels_transpose, List.flatMap_map, List.map_flatMap]
    simp only [filter_handlesAt_transpose]
  rw [filter_handles, filter_handles, hdistinct, hdistinct, List.map_map, List.map_map]
  exact List.map_congr_left fun h _ => Handle.unified_transpose _ _ h

/-! ### All operations -/

/-- **The rules for the two directions are mirror images of each other.**  Whatever the numbers of a
layout are, as long as products do not depend on the order of their factors, the mirror image has
the mirrored first violation, its columns are the rows of the layout and its rows are the columns,
a removal gives the mirror image of the removal or the same refusal, the candidates are the mirror
images of the candidates with the two cuts of each panel taken in the other order, and the handles
on the boundaries of each orientation are in order the mirror images of those of the other. -/
theorem transpose_operations (hmul : ∀ a b : α, a * b = b * a) (s : Layout α) :
    s.transpose.validate = s.validate.mapError Violation.transpose ∧
      (∀ p line, s.transpose.bandCount line.flip p.transpose = s.bandCount line p) ∧
      (∀ id, s.transpose.remove id = (s.remove id).map transpose) ∧
      (∀ limits, s.candidates limits = s.candidatesBy [.vertical, .horizontal] limits ∧
        s.transpose.candidates limits.swap =
          ((s.candidatesBy [.horizontal, .vertical] limits).mapError Refusal.transpose).map
            (·.map transpose)) ∧
      ∀ workspace b, (s.transpose.handles workspace.flip).filter (·.boundary = b.flip) =
        ((s.handles workspace).filter (·.boundary = b)).map Handle.transpose := by
  refine ⟨s.validate_transpose hmul, fun p line => s.bandCount_transpose line p,
    s.remove_transpose hmul, fun limits => ⟨s.candidates_eq_candidatesBy limits, ?_⟩,
    s.filter_handles_transpose⟩
  exact candidatesBy_transpose [.horizontal, .vertical] s limits

/-- Three panels in double precision, one with a height that is not comparable to itself and one
with an infinite width. -/
def blurred : Layout Float :=
  (empty .horizontal).putAll [⟨⟨1⟩, ⟨0, 0, 0.5, 1⟩⟩, ⟨⟨2⟩, ⟨0.5, 0, 0.5, 0 / 0⟩⟩,
    ⟨⟨3⟩, ⟨0.5, 0.5, 1 / 0, 0.5⟩⟩]

theorem transpose_operations_blurred :
    (∀ a b : Float, a * b = b * a) ∧
      blurred.transpose.validate = blurred.validate.mapError Violation.transpose ∧
      (∀ p line, blurred.transpose.bandCount line.flip p.transpose = blurred.bandCount line p) ∧
      (∀ id, blurred.transpose.remove id = (blurred.remove id).map transpose) ∧
      (∀ limits, blurred.candidates limits = blurred.candidatesBy [.vertical, .horizontal] limits ∧
        blurred.transpose.candidates limits.swap =
          ((blurred.candidatesBy [.horizontal, .vertical] limits).mapError Refusal.transpose).map
            (·.map transpose)) ∧
      ∀ workspace b, (blurred.transpose.handles workspace.flip).filter (·.boundary = b.flip) =
        ((blurred.handles workspace).filter (·.boundary = b)).map Handle.transpose :=
  ⟨Binary64.mul_comm, transpose_operations Binary64.mul_comm blurred⟩

end Layout

end Mosaic
