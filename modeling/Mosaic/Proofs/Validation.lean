import Mosaic.Proofs.Comparisons
import Mosaic.Proofs.Findings
import Mosaic.Proofs.Tiling

/-!
# Validation decides tiling

On the grid whose cells are just larger in area than the tolerance, the check of a layout in double
precision accepts the tilings of the unit square and nothing else.  Coordinates of any size are
allowed: what lies outside the workspace is found out before any rounding matters, and inside it the
stops, the areas and their sums are exact.

* `Layout.values`: the numbers that the coordinates stand for.
* `Layout.OnGrid`: all coordinates are finite multiples of 1/512.
* `Layout.validate_eq_ok_iff_tiles`: the theorem.
-/

namespace Mosaic

open Coordinate Float.Model Float.Model.UnpackedFloat

namespace Binary64

/-- The number that a finite double stands for; zero if the double is not finite. -/
def value (a : Float) : ℚ :=
  match parts a with
  | .finite s m e _ => s.apply m * 2 ^ e
  | _ => 0

/-- The double is finite and a whole multiple of the width of the grid. -/
def OnGrid (a : Float) : Prop :=
  ∃ k : ℤ, Represents a (k / 512)

variable {a b : Float} {q r : ℚ}

theorem Represents.value_eq (h : Represents a q) : value a = q := by
  unfold value
  rcases represents_iff.1 h with ⟨s, ha, rfl⟩ | ⟨s, m, e, hm, ha, -, -, rfl⟩ <;> rw [ha]

theorem OnGrid.represents (h : OnGrid a) : Represents a (value a) := by
  obtain ⟨k, hk⟩ := h
  rwa [hk.value_eq]

theorem OnGrid.onCells_mul (ha : OnGrid a) (hb : OnGrid b) : OnCells (value a * value b) := by
  obtain ⟨k, hk⟩ := ha
  obtain ⟨l, hl⟩ := hb
  refine ⟨k * l, ?_⟩
  rw [hk.value_eq, hl.value_eq]
  unfold cell
  push_cast
  ring

theorem OnGrid.onCells (h : OnGrid a) : OnCells (value a) := by
  obtain ⟨k, hk⟩ := h
  refine ⟨512 * k, ?_⟩
  rw [hk.value_eq]
  unfold cell
  push_cast
  ring

/-- Sums of doubles are exact as long as doubles have room for them.  The numbers are taken from a
set that is closed under addition, and of which doubles have room for all numbers up to two. -/
theorem represents_foldl {P : ℚ → Prop} (hadd : ∀ ⦃q r⦄, P q → P r → P (q + r))
    (hroom : ∀ ⦃q⦄, P q → 0 ≤ q → q ≤ 2 → Representable q) {β : Type} {f : β → Float} {g : β → ℚ}
    {l : List β} (hf : ∀ x ∈ l, Represents (f x) (g x)) (hg : ∀ x ∈ l, P (g x) ∧ 0 ≤ g x)
    (ha : Represents a q) (hP : P q) (hq : 0 ≤ q) (hle : q + (l.map g).sum ≤ 2) :
    Represents ((l.map f).foldl (· + ·) a) (q + (l.map g).sum) ∧ P (q + (l.map g).sum) := by
  induction l generalizing a q with
  | nil => simpa using ⟨ha, hP⟩
  | cons x l ih =>
    obtain ⟨hx, hl⟩ := List.forall_mem_cons.1 hf
    obtain ⟨⟨hxP, hxnonneg⟩, hgl⟩ := List.forall_mem_cons.1 hg
    have hrest : 0 ≤ (l.map g).sum :=
      List.sum_nonneg (List.forall_mem_map.2 fun y hy => (hgl y hy).2)
    simp only [List.map_cons, List.sum_cons, List.foldl_cons, ← add_assoc] at hle ⊢
    have hnonneg := add_nonneg hq hxnonneg
    have hsum : Represents (a + f x) (q + g x) :=
      (rounds_add ha hx).denotes (hroom (hadd hP hxP) hnonneg (by linarith))
    exact ih hl hgl hsum (hadd hP hxP) hnonneg hle

end Binary64

open Binary64

/-! ### Spans on the grid -/

namespace Span

/-- The numbers that start and extent stand for. -/
def values (s : Span Float) : Span ℚ :=
  ⟨value s.start, value s.extent⟩

/-- Start and extent are on the grid. -/
def OnGrid (s : Span Float) : Prop :=
  Binary64.OnGrid s.start ∧ Binary64.OnGrid s.extent

variable {s t : Span Float}

theorem OnGrid.onCells_stop (h : s.OnGrid) : OnCells s.values.stop :=
  h.1.onCells.add h.2.onCells

/-- The stop is exact unless it lies outside the workspace. -/
theorem represents_stop (h : s.OnGrid) (hpos : s.values.Positive)
    (hin : 0 ≤ s.values.start ∧ s.values.stop ≤ 1) : Represents s.stop s.values.stop := by
  refine (rounds_add h.1.represents h.2.represents).denotes ?_
  refine h.onCells_stop.representable ?_ (hin.2.trans one_le_two)
  exact hin.1.trans (start_lt_stop hpos).le

theorem withinUnit_iff (h : s.OnGrid) (hpos : s.values.Positive) :
    s.WithinUnit ↔ 0 ≤ s.values.start ∧ s.values.stop ≤ 1 := by
  have hstart : AtMost 0 s.start ↔ 0 ≤ s.values.start :=
    atMost_iff represents_zero h.1.represents OnCells.zero h.1.onCells
  unfold WithinUnit
  rw [hstart]
  refine and_congr_right fun hnonneg => ?_
  constructor
  · intro hstop
    by_contra hlt
    -- the stop is at least one cell too large, and so is its rounding
    have hcell : cell ≤ s.values.stop - 1 :=
      (h.onCells_stop.sub OnCells.one).cell_le (sub_pos.2 (not_le.1 hlt))
    have hrepresentable : Representable (1 + cell) :=
      (OnCells.one.add OnCells.self).representable (by norm_num [cell]) (by norm_num [cell])
    have hbelow : NotBelow (parts s.stop) (1 + cell) :=
      (rounds_add h.1.represents h.2.represents _ hrepresentable).1
        (le_sub_iff_add_le'.1 hcell)
    exact not_atMost_of_notBelow hbelow represents_one (by simp) hstop
  · intro hle
    exact (atMost_iff (represents_stop h hpos ⟨hnonneg, hle⟩) represents_one h.onCells_stop
      OnCells.one).2 hle

/-- Spans in the workspace overlap if and only if they have a stretch in common. -/
theorem overlaps_iff (hs : s.OnGrid) (ht : t.OnGrid) (hs' : Represents s.stop s.values.stop)
    (ht' : Represents t.stop t.values.stop) : s.Overlaps t ↔ s.values.Meets t.values := by
  unfold Overlaps Meets
  rw [below_iff ht.1.represents hs' ht.1.onCells hs.onCells_stop,
    below_iff hs.1.represents ht' hs.1.onCells ht.onCells_stop]
  exact And.comm

end Span

/-! ### Rectangles and layouts on the grid -/

namespace Rect

/-- The numbers that the coordinates stand for. -/
def values (r : Rect Float) : Rect ℚ :=
  ⟨value r.x, value r.y, value r.width, value r.height⟩

/-- All four numbers are on the grid. -/
def OnGrid (r : Rect Float) : Prop :=
  Binary64.OnGrid r.x ∧ Binary64.OnGrid r.y ∧ Binary64.OnGrid r.width ∧ Binary64.OnGrid r.height

variable {r s : Rect Float}

theorem along_values (r : Rect Float) (o : Orientation) : r.values.along o = (r.along o).values := by
  cases o <;> rfl

theorem OnGrid.along (h : r.OnGrid) (o : Orientation) : (r.along o).OnGrid := by
  obtain ⟨hx, hy, hw, hh⟩ := h
  cases o
  · exact ⟨hx, hw⟩
  · exact ⟨hy, hh⟩

theorem withinUnit_iff (h : r.OnGrid) (hpos : ∀ o, (r.values.along o).Positive) :
    r.WithinUnit ↔ ∀ o, 0 ≤ (r.values.along o).start ∧ (r.values.along o).stop ≤ 1 := by
  have hspan := fun o => Span.withinUnit_iff (h.along o) (r.along_values o ▸ hpos o)
  unfold WithinUnit
  rw [hspan, hspan, Orientation.forall_iff .horizontal]
  rfl

/-- Rectangles in the workspace intersect unless they are apart. -/
theorem intersects_iff (hr : r.OnGrid) (hs : s.OnGrid)
    (hr' : ∀ o, Represents (r.along o).stop (r.along o).values.stop)
    (hs' : ∀ o, Represents (s.along o).stop (s.along o).values.stop) :
    r.Intersects s ↔ ¬ r.values.Apart s.values := by
  have hspan := fun o => Span.overlaps_iff (hr.along o) (hs.along o) (hr' o) (hs' o)
  unfold Intersects
  rw [hspan, hspan, apart_iff .horizontal, ← not_and_or, not_not]
  rfl

theorem onCells_area (h : r.OnGrid) : OnCells r.values.area :=
  h.2.2.1.onCells_mul h.2.2.2

/-- The area of a rectangle in the workspace is exact. -/
theorem represents_area (h : r.OnGrid) (hpos : ∀ o, (r.values.along o).Positive)
    (hin : ∀ o, 0 ≤ (r.values.along o).start ∧ (r.values.along o).stop ≤ 1) :
    Represents r.area r.values.area := by
  have hle : ∀ o, (r.values.along o).extent ≤ 1 := fun o => by
    have hstop := (hin o).2
    rw [Span.stop_eq] at hstop
    linarith [(hin o).1]
  have hnonneg := mul_nonneg (hpos .horizontal).le (hpos .vertical).le
  have hle' := mul_le_one₀ (hle .horizontal) (hpos .vertical).le (hle .vertical)
  exact (rounds_mul h.2.2.1.represents h.2.2.2.represents).denotes
    ((onCells_area h).representable hnonneg (hle'.trans one_le_two))

end Rect

/-- The numbers that the coordinates stand for. -/
def Panel.values (p : Panel Float) : Panel ℚ :=
  ⟨p.id, p.rect.values⟩

namespace Layout

/-- The numbers that the coordinates stand for. -/
def values (s : Layout Float) : Layout ℚ :=
  ⟨s.orientation, s.panels.map Panel.values, List.Pairwise.map _ (fun _ _ => id) s.ascending⟩

/-- All coordinates are on the grid. -/
def OnGrid (s : Layout Float) : Prop :=
  ∀ p ∈ s.panels, p.rect.OnGrid

variable {s : Layout Float}

theorem forall_values {P : Panel ℚ → Prop} :
    (∀ p ∈ s.values.panels, P p) ↔ ∀ p ∈ s.panels, P p.values :=
  List.forall_mem_map

section OnGrid

variable (hgrid : s.OnGrid) (hpos : ∀ p ∈ s.values.panels, ∀ o, (p.rect.along o).Positive)
include hgrid hpos

theorem forall_withinUnit_iff : (∀ p ∈ s.panels, p.rect.WithinUnit) ↔
    ∀ p ∈ s.values.panels, ∀ o, 0 ≤ (p.rect.along o).start ∧ (p.rect.along o).stop ≤ 1 := by
  rw [forall_values]
  exact forall₂_congr fun p hp => Rect.withinUnit_iff (hgrid p hp) (forall_values.1 hpos p hp)

variable (hin : ∀ p ∈ s.values.panels, ∀ o,
  0 ≤ (p.rect.along o).start ∧ (p.rect.along o).stop ≤ 1)
include hin

theorem forall_not_intersects_iff :
    (∀ p ∈ s.panels, ∀ q ∈ s.panels, q.id ≠ p.id → ¬ p.rect.Intersects q.rect) ↔
      ∀ p ∈ s.values.panels, ∀ q ∈ s.values.panels, p ≠ q → p.rect.Apart q.rect := by
  have hstop : ∀ p ∈ s.panels, ∀ o, Represents (p.rect.along o).stop (p.rect.along o).values.stop :=
    fun p hp o => Span.represents_stop ((hgrid p hp).along o)
      (p.rect.along_values o ▸ forall_values.1 hpos p hp o)
      (p.rect.along_values o ▸ forall_values.1 hin p hp o)
  simp only [forall_values]
  refine forall₂_congr fun p hp => forall₂_congr fun q hq => ?_
  have hid : q.id ≠ p.id ↔ p.values ≠ q.values := not_congr
    ⟨fun heq => congrArg Panel.values (s.eq_of_id_eq hp hq heq.symm),
      fun heq => (congrArg Panel.id heq).symm⟩
  rw [hid, Rect.intersects_iff (hgrid p hp) (hgrid q hq) (hstop p hp) (hstop q hq), not_not]
  rfl

/-- The covered area is exact if no two panels have a stretch in common. -/
theorem represents_coveredArea
    (hapart : ∀ p ∈ s.values.panels, ∀ q ∈ s.values.panels, p ≠ q → p.rect.Apart q.rect) :
    Represents s.coveredArea (s.values.panels.map (·.rect.area)).sum ∧
      OnCells (s.values.panels.map (·.rect.area)).sum := by
  have hle := sum_area_le_one hpos hin hapart
  have hvalues : s.values.panels.map (·.rect.area) = s.panels.map fun p => p.rect.values.area :=
    List.map_map
  rw [hvalues] at hle ⊢
  have hsum := represents_foldl (fun _ _ => OnCells.add) (fun _ => OnCells.representable)
    (f := fun p : Panel Float => p.rect.area) (g := fun p : Panel Float => p.rect.values.area)
    (l := s.panels) ?_ ?_ represents_zero OnCells.zero le_rfl (by rw [zero_add]; linarith)
  · rwa [zero_add] at hsum
  · exact fun p hp => Rect.represents_area (hgrid p hp) (forall_values.1 hpos p hp)
      (forall_values.1 hin p hp)
  · intro p hp
    have hpositive := forall_values.1 hpos p hp
    exact ⟨Rect.onCells_area (hgrid p hp),
      mul_nonneg (hpositive .horizontal).le (hpositive .vertical).le⟩

end OnGrid

theorem validate_eq_ok_iff_perfect (hs : s.panels ≠ []) (hgrid : s.OnGrid)
    (hpos : ∀ p ∈ s.values.panels, ∀ o, (p.rect.along o).Positive) :
    s.validate = .ok () ↔ s.values.Perfect := by
  rw [validate_eq_ok_iff hs, forall_withinUnit_iff hgrid hpos, perfect_iff,
    and_iff_right hpos]
  refine and_congr_right fun hin => ?_
  rw [forall_not_intersects_iff hgrid hpos hin]
  refine and_congr_right fun hapart => ?_
  obtain ⟨hcovered, hcells⟩ := represents_coveredArea hgrid hpos hin hapart
  exact near_iff hcovered represents_one hcells OnCells.one

/-- **Validation decides tiling.**  A layout in double precision with at least one panel, positive
extents and all coordinates on the grid is valid if and only if its panels tile the unit square. -/
theorem validate_eq_ok_iff_tiles (hs : s.panels ≠ []) (hgrid : s.OnGrid)
    (hpos : ∀ p ∈ s.panels, 0 < p.rect.width ∧ 0 < p.rect.height) :
    s.validate = .ok () ↔ s.values.Tiles := by
  rw [tiles_iff_perfect]
  refine validate_eq_ok_iff_perfect hs hgrid ?_
  rw [forall_values]
  intro p hp o
  have hposp := hpos p hp
  rw [lt_iff_of_represents represents_zero (hgrid p hp).2.2.1.represents,
    lt_iff_of_represents represents_zero (hgrid p hp).2.2.2.represents] at hposp
  cases o
  · exact hposp.1
  · exact hposp.2

theorem represents_one_half : Represents 0.5 (1 / 2) := by
  have hparts : parts 0.5 = .finite .positive 4503599627370496 (-53) (by decide) := rfl
  unfold Represents
  rw [hparts]
  change (1 / 2 : ℚ) = ((4503599627370496 : ℕ) : ℤ) * 2 ^ (-53 : ℤ)
  norm_num

/-- Two columns in double precision. -/
def twoColumns : Layout Float :=
  (empty .horizontal).putAll [⟨⟨1⟩, ⟨0, 0, 0.5, 1⟩⟩, ⟨⟨2⟩, ⟨0.5, 0, 0.5, 1⟩⟩]

theorem validate_twoColumns_iff_tiles :
    twoColumns.panels ≠ [] ∧ twoColumns.OnGrid ∧
      (∀ p ∈ twoColumns.panels, 0 < p.rect.width ∧ 0 < p.rect.height) ∧
      twoColumns.validate = .ok () ∧ twoColumns.values.Tiles := by
  have hzero : Binary64.OnGrid 0 := ⟨0, by simpa using represents_zero⟩
  have hone : Binary64.OnGrid 1 := ⟨512, by simpa using represents_one⟩
  have hhalf : Binary64.OnGrid 0.5 := by
    refine ⟨256, ?_⟩
    rw [show (256 : ℤ) / 512 = (1 / 2 : ℚ) by norm_num]
    exact represents_one_half
  have hne : twoColumns.panels ≠ [] := by decide +kernel
  have hgrid : twoColumns.OnGrid := by
    intro p hp
    rcases List.mem_cons.1 hp with rfl | hp
    · exact ⟨hzero, hzero, hhalf, hone⟩
    · obtain rfl := List.mem_singleton.1 hp
      exact ⟨hhalf, hzero, hhalf, hone⟩
  have hpos : ∀ p ∈ twoColumns.panels, 0 < p.rect.width ∧ 0 < p.rect.height := by
    decide +kernel
  have hvalid : twoColumns.validate = .ok () := by decide +kernel
  exact ⟨hne, hgrid, hpos, hvalid, (validate_eq_ok_iff_tiles hne hgrid hpos).1 hvalid⟩

end Layout

end Mosaic
