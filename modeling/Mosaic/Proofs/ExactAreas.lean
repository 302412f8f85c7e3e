import Mosaic.Proofs.Bounds
import Mosaic.Proofs.ExactHalves
import Mosaic.Proofs.Removal

/-!
# Areas are conserved

Halving a panel and handing a panel over keep the exact sum of the areas on the mesh in the
workspace, whether the panels tile it, overlap, or leave gaps.  The halves are exact.  The extents
of the panels that take a removed one over are only compared with its edge up to the tolerance, in
a sum that could be rounded; but a sum on the mesh is exact as long as it stays below two, and stays
above two once it has got there, so a sum that is near the edge is exact and equal to it.

* `Binary64.represents_foldl_or_notBelow`: sums on the mesh are exact, or large.
* `Binary64.sum_eq_of_near`: such a sum is near a number on the mesh only if it is equal to it.
* `Rect.values_growOver`: growing over a neighbour is exact.
* `Layout.exactArea_handOver`: a flank takes over exactly the area that is removed.
* `Layout.exactArea_conserved`: candidates and removals.
-/

namespace Mosaic

open Coordinate Binary64

/-! ### Numbers on the mesh -/

namespace Binary64

variable {a b : Float} {q r : ℚ}

theorem Represents.self (h : Represents a q) : Represents a (value a) := by
  rwa [h.value_eq]

theorem representable_of_onMesh_of_abs_le (h : OnMesh q) (hle : |q| ≤ 2 ^ 20) :
    Representable q := by
  obtain ⟨k, rfl⟩ := h
  rw [show mesh = 2 ^ (-19 : ℤ) by norm_num [mesh]] at hle ⊢
  exact representable_of_abs_lt (hle.trans_lt (by norm_num)) (by decide) (by decide)

theorem representable_of_onMesh (h : OnMesh q) (hle : |q| ≤ 2) : Representable q :=
  representable_of_onMesh_of_abs_le h (hle.trans (by norm_num))

/-- Numbers on the mesh that are not too far apart are near only if they are equal. -/
theorem eq_of_near (ha : Represents a q) (hb : Represents b r) (hq : OnMesh q) (hr : OnMesh r)
    (hle : |q - r| ≤ 2) (h : Near a b) : q = r := by
  have hleft := (rounds_sub ha hb).denotes (representable_of_onMesh (hq.sub hr) hle)
  have hright := (rounds_sub hb ha).denotes
    (representable_of_onMesh (hr.sub hq) (by rwa [abs_sub_comm]))
  have hup := (le_iff_of_represents hleft represents_tolerance).1 h.1
  have hdown := (le_iff_of_represents hright represents_tolerance).1 h.2
  have hsmall : toleranceValue < mesh := by norm_num [mesh, toleranceValue]
  rcases eq_zero_or_mesh_le (hq.sub hr) with hzero | hlarge
  · exact sub_eq_zero.1 hzero
  · have habs : |q - r| ≤ toleranceValue := abs_le'.2 ⟨hup, by rwa [neg_sub]⟩
    exact absurd (hlarge.trans habs) (not_le.2 hsmall)

theorem represents_emptySum : Represents emptySum 0 := by
  unfold Represents
  rw [parts_emptySum]
  rfl

theorem notBelow_foldl {xs : List Float} (ha : NotBelow (parts a) q) (hxs : ∀ x ∈ xs, 0 ≤ x) :
    NotBelow (parts (xs.foldl (· + ·) a)) q := by
  induction xs generalizing a with
  | nil => exact ha
  | cons x xs ih =>
    obtain ⟨hx, hxs⟩ := List.forall_mem_cons.1 hxs
    exact ih (ha.add hx) hxs

section Sums

variable {β : Type} {f : β → Float} {g : β → ℚ} {l : List β}
  (hf : ∀ x ∈ l, Represents (f x) (g x)) (hg : ∀ x ∈ l, OnMesh (g x) ∧ 0 ≤ g x)
include hf hg

/-- **A sum of numbers on the mesh is exact, or at least two.** -/
theorem represents_foldl_or_notBelow (ha : Represents a q) (hq : OnMesh q) (hnonneg : 0 ≤ q)
    (hle : q ≤ 2) :
    Represents ((l.map f).foldl (· + ·) a) (q + (l.map g).sum) ∧ q + (l.map g).sum ≤ 2 ∨
      NotBelow (parts ((l.map f).foldl (· + ·) a)) 2 := by
  induction l generalizing a q with
  | nil => exact Or.inl (by simpa using ⟨ha, hle⟩)
  | cons x l ih =>
    obtain ⟨hx, hfl⟩ := List.forall_mem_cons.1 hf
    obtain ⟨⟨hmesh, hpos⟩, hgl⟩ := List.forall_mem_cons.1 hg
    have hround := rounds_add ha hx
    simp only [List.map_cons, List.sum_cons, List.foldl_cons, ← add_assoc]
    rcases le_or_gt (q + g x) 2 with hsmall | hlarge
    · have hnonneg' := add_nonneg hnonneg hpos
      have hexact := hround.denotes (representable_of_onMesh (hq.add hmesh)
        (by rwa [abs_of_nonneg hnonneg']))
      exact ih hfl hgl hexact (hq.add hmesh) hnonneg' hsmall
    · -- the sum has reached two, a number that is not crossed by rounding
      have htwo : Representable 2 := representable_of_onMesh ⟨2 ^ 20, by norm_num [mesh]⟩ (by simp)
      refine Or.inr (notBelow_foldl ((hround 2 htwo).1 hlarge.le) ?_)
      intro y hy
      obtain ⟨z, hz, rfl⟩ := List.mem_map.1 hy
      exact (le_iff_of_represents represents_zero (hfl z hz)).2 (hgl z hz).2

/-- **A sum that is near a number on the mesh is equal to it.** -/
theorem sum_eq_of_near (hb : Represents b r) (hr : OnMesh r) (hmem : 0 ≤ r ∧ r ≤ 1)
    (h : Near (Coordinate.sum (l.map f)) b) : (l.map g).sum = r := by
  rcases represents_foldl_or_notBelow hf hg represents_emptySum OnMesh.zero le_rfl zero_le_two with
    ⟨hsum, hle⟩ | hlarge
  · rw [zero_add] at hsum hle
    have hnonneg : 0 ≤ (l.map g).sum :=
      List.sum_nonneg (List.forall_mem_map.2 fun x hx => (hg x hx).2)
    have hmesh : OnMesh (l.map g).sum :=
      OnMesh.list_sum (List.forall_mem_map.2 fun x hx => (hg x hx).1)
    refine eq_of_near hsum hb hmesh hr (abs_le.2 ⟨?_, ?_⟩) h <;> linarith [hmem.1, hmem.2]
  · refine absurd h (not_near_of_notBelow hlarge hb ?_)
    have hcell : cell ≤ 1 := by norm_num [cell]
    linarith [hmem.2]

end Sums

theorem represents_least (ha : Represents a q) (hb : Represents b r) :
    Represents (least a b) (least q r) := by
  unfold least
  simp only [lt_iff_of_represents hb ha, (le_iff_of_represents ha ha).2 le_rfl, le_refl, if_true]
  split
  · exact hb
  · exact ha

end Binary64

/-! ### Spans and rectangles -/

/-- Start and extent are finite. -/
def Span.Finite (s : Span Float) : Prop :=
  Represents s.start s.values.start ∧ Represents s.extent s.values.extent

theorem Span.OnUnitMesh.finite {s : Span Float} (h : s.OnUnitMesh) : s.Finite :=
  ⟨h.start, h.extent⟩

namespace Rect

variable {r q : Rect Float}

theorem finite_halfAt (h : ∀ o, (r.along o).OnUnitMesh) (cut : Orientation) (side : Side)
    (o : Orientation) : ((r.halfAt cut side).along o).Finite := by
  have hcut := h cut.flip
  rcases Orientation.eq_or_eq_flip cut o with rfl | rfl
  · rw [along_halfAt]
    exact (h _).finite
  · cases side with
    | before =>
      rw [along_flip_halfAt_before]
      exact ⟨hcut.start.self, hcut.represents_half.self⟩
    | after =>
      rw [along_flip_halfAt_after]
      exact ⟨hcut.represents_middle.self, hcut.represents_rest.self⟩

section GrowOver

variable (hq : ∀ o, (q.along o).OnUnitMesh) (hr : ∀ o, (r.along o).OnUnitMesh)
include hq hr

theorem represents_growOver (b : Orientation) :
    Represents (least (q.along b.flip).start (r.along b.flip).start)
        (least (q.along b.flip).values.start (r.along b.flip).values.start) ∧
      Represents ((q.along b.flip).extent + (r.along b.flip).extent)
        ((q.along b.flip).values.extent + (r.along b.flip).values.extent) := by
  refine ⟨represents_least (hq _).start (hr _).start, ?_⟩
  refine (rounds_add (hq _).extent (hr _).extent).denotes
    (representable_of_onMesh ((hq _).onMesh.2.add (hr _).onMesh.2) ?_)
  have hqle := abs_le.1 (hq b.flip).abs_extent_le
  have hrle := abs_le.1 (hr b.flip).abs_extent_le
  exact abs_le.2 ⟨by linarith, by linarith⟩

/-- **Growing over a neighbour is exact.** -/
theorem values_growOver (b : Orientation) :
    (q.growOver r b).values = q.values.growOver r.values b := by
  obtain ⟨hstart, hextent⟩ := represents_growOver hq hr b
  unfold growOver
  rw [values_ofSpans, along_values, along_values, along_values]
  refine congrArg _ ?_
  unfold Span.values at hstart hextent ⊢
  rw [hstart.value_eq, hextent.value_eq]

theorem finite_growOver (b o : Orientation) : ((q.growOver r b).along o).Finite := by
  rcases Orientation.eq_or_eq_flip b o with rfl | rfl
  · rw [along_growOver]
    exact (hq _).finite
  · obtain ⟨hstart, hextent⟩ := represents_growOver hq hr b
    unfold growOver
    rw [along_flip_ofSpans]
    exact ⟨hstart.self, hextent.self⟩

end GrowOver

end Rect

/-! ### Layouts -/

namespace Layout

variable {s t c : Layout Float} {p q : Panel Float} {b : Orientation} {side : Side}
  {limits : Limits} {cs : List (Layout Float)} {id : PanelId}

/-- All coordinates are finite. -/
def Finite (s : Layout Float) : Prop :=
  ∀ p ∈ s.panels, ∀ o, (p.rect.along o).Finite

/-- The sum of the areas of the panels, without any rounding. -/
def exactArea (s : Layout Float) : ℚ :=
  (s.values.panels.map (·.rect.area)).sum

theorem exactArea_eq (s : Layout Float) :
    s.exactArea = (s.panels.map fun p => p.rect.values.area).sum :=
  congrArg List.sum List.map_map

theorem exactArea_eq_of_perm {ps : List (Panel Float)} (h : s.panels.Perm ps) :
    s.exactArea = (ps.map fun p => p.rect.values.area).sum := by
  rw [exactArea_eq]
  exact (h.map _).sum_eq

/-- A split of a layout on the mesh has finite coordinates. -/
theorem Split.finite {cut : Orientation} {kept created : Rect Float}
    (h : s.Split t p cut kept created id) (hmesh : s.OnUnitMesh) : t.Finite := by
  intro q hq o
  rcases h.half_or_mem hq with ⟨-, side, hrect⟩ | ⟨hq, -⟩
  · rw [hrect]
    exact Rect.finite_halfAt (hmesh p h.mem) cut side o
  · exact (hmesh q hq o).finite

/-- **A candidate has the area of the layout.** -/
theorem exactArea_of_mem_candidates (hmesh : s.OnUnitMesh) (hcs : s.candidates limits = .ok cs)
    (hc : c ∈ cs) : c.Finite ∧ c.exactArea = s.exactArea := by
  obtain ⟨p, cut, kept, created, hsplit, -⟩ := exists_split_of_mem_candidates hcs hc
  obtain ⟨side, hhalved⟩ := (hsplit.values hmesh).exists_halved
  refine ⟨hsplit.finite hmesh, ?_⟩
  rw [exactArea_eq_of_perm hsplit.perm, exactArea_eq_of_perm (perm_cons_erase hsplit.mem)]
  simp only [List.map_cons, List.sum_cons]
  rw [← add_assoc, hhalved.area]
  rfl

section Removal

variable (hmesh : s.OnUnitMesh) (hpos : ∀ p ∈ s.panels, 0 < p.rect.width ∧ 0 < p.rect.height)
  (hp : p ∈ s.panels)
include hmesh hpos hp

/-- The extents of a usable flank add up to the edge, without any rounding. -/
theorem sum_extent_of_usable (hu : ((s.erase p.id).flank p b side).Usable p.rect) :
    (((s.erase p.id).flank p b side).panels.map fun q => (q.rect.along b).values.extent).sum =
      (p.rect.along b).values.extent := by
  have hextent : ∀ q ∈ s.panels, 0 ≤ (q.rect.along b).values.extent := by
    intro q hq
    have hposq := hpos q hq
    refine (le_iff_of_represents represents_zero (hmesh q hq b).extent).1 (le_of_lt ?_)
    cases b
    · exact hposq.1
    · exact hposq.2
  have hmem : ∀ q ∈ ((s.erase p.id).flank p b side).panels, q ∈ s.panels :=
    fun q hq => (mem_erase.1 (mem_flank.1 hq).1).1
  refine sum_eq_of_near (fun q hq => (hmesh q (hmem q hq) b).extent)
    (fun q hq => ⟨(hmesh q (hmem q hq) b).onMesh.2, hextent q (hmem q hq)⟩)
    (hmesh p hp b).extent (hmesh p hp b).onMesh.2 ⟨hextent p hp, ?_⟩ hu.2
  exact (abs_le.1 (hmesh p hp b).abs_extent_le).2

/-- A usable flank grows by the area that is removed. -/
theorem sum_area_growOver_of_usable (hu : ((s.erase p.id).flank p b side).Usable p.rect) :
    (((s.erase p.id).flank p b side).panels.map fun q =>
        (q.rect.growOver p.rect b).values.area).sum =
      (((s.erase p.id).flank p b side).panels.map fun q => q.rect.values.area).sum +
        p.rect.values.area := by
  have hrect : ∀ q ∈ ((s.erase p.id).flank p b side).panels,
      (q.rect.growOver p.rect b).values.area =
        q.rect.values.area +
          (q.rect.along b).values.extent * (p.rect.along b.flip).values.extent := by
    intro q hq
    have hqs : q ∈ s.panels := (mem_erase.1 (mem_flank.1 hq).1).1
    rw [Rect.values_growOver (hmesh q hqs) (hmesh p hp), Rect.area_growOver, Rect.along_values,
      Rect.along_values]
  rw [List.map_congr_left hrect, List.sum_map_add, List.sum_map_mul_right,
    sum_extent_of_usable hmesh hpos hp hu, ← Rect.along_values, ← Rect.along_values,
    ← Rect.area_eq]

/-- **A flank takes over exactly the area that is removed.** -/
theorem exactArea_handOver (hu : ((s.erase p.id).flank p b side).Usable p.rect) :
    ((s.erase p.id).handOver p.rect ((s.erase p.id).flank p b side)).Finite ∧
      ((s.erase p.id).handOver p.rect ((s.erase p.id).flank p b side)).exactArea =
        s.exactArea := by
  have hgrown := perm_handOver (s.erase p.id) p.rect (flank_panels (s.erase p.id) p b side)
  refine ⟨?_, ?_⟩
  · intro q hq o
    rw [hgrown.mem_iff, List.mem_append, List.mem_map, List.mem_filter, mem_erase] at hq
    rcases hq with ⟨k, hk, rfl⟩ | ⟨⟨hq, -⟩, -⟩
    · have hks : k ∈ s.panels := (mem_erase.1 (mem_flank.1 hk).1).1
      exact Rect.finite_growOver (hmesh k hks) (hmesh p hp) b o
    · exact (hmesh q hq o).finite
  · have hsum := sum_area_growOver_of_usable hmesh hpos hp hu
    have hparts := (List.filter_append_perm
      (fun q => decide (q.id ≠ p.id ∧ p.rect.sideTouched q.rect b = some side))
      (s.erase p.id).panels).symm
    rw [← flank_panels] at hparts
    rw [exactArea_eq_of_perm hgrown,
      exactArea_eq_of_perm ((perm_cons_erase hp).trans (hparts.cons p))]
    simp only [List.map_cons, List.map_append, List.map_map, List.sum_cons, List.sum_append,
      ← add_assoc]
    rw [add_comm p.rect.values.area, ← hsum]
    rfl

end Removal

/-- **Areas are conserved.**  Candidates and the results of removals that leave more than one panel
have finite coordinates and exactly the area of the layout. -/
theorem exactArea_conserved (hmesh : s.OnUnitMesh)
    (hpos : ∀ p ∈ s.panels, 0 < p.rect.width ∧ 0 < p.rect.height) :
    (∀ limits cs, s.candidates limits = .ok cs →
        ∀ c ∈ cs, c.Finite ∧ c.exactArea = s.exactArea) ∧
      (3 ≤ s.size → ∀ id t, s.remove id = .ok t → t.Finite ∧ t.exactArea = s.exactArea) := by
  refine ⟨fun limits cs hcs c hc => exactArea_of_mem_candidates hmesh hcs hc, ?_⟩
  intro hsize id t ht
  cases hfind : s.find? id with
  | none =>
    rw [remove_of_find?_eq_none hfind] at ht
    cases ht
  | some r =>
    have hp : (⟨id, r⟩ : Panel Float) ∈ s.panels := find?_eq_some_iff.1 hfind
    have heq := remove_of_three_le hp hsize
    rw [ht] at heq
    split at heq
    · cases heq
    · next hheirs =>
      cases heq
      obtain ⟨b, side, rfl, hu⟩ := exists_of_heirs? hheirs
      exact exactArea_handOver hmesh hpos hp hu

/-- Two panels on the same place, a third one beside them, and the lower half left empty. -/
def doubled : Layout Float :=
  (empty .horizontal).putAll [⟨⟨1⟩, ⟨0, 0, 0.5, 0.5⟩⟩, ⟨⟨2⟩, ⟨0, 0, 0.5, 0.5⟩⟩,
    ⟨⟨3⟩, ⟨0.5, 0, 0.5, 0.5⟩⟩]

theorem exactArea_conserved_doubled :
    doubled.OnUnitMesh ∧ (∀ p ∈ doubled.panels, 0 < p.rect.width ∧ 0 < p.rect.height) ∧
      doubled.validate ≠ .ok () ∧ 3 ≤ doubled.size ∧
      (∃ cs, doubled.candidates ⟨4, 4⟩ = .ok cs ∧ cs ≠ [] ∧
        ∀ c ∈ cs, c.exactArea = doubled.exactArea) ∧
      ∃ t, doubled.remove ⟨2⟩ = .ok t ∧ t.exactArea = doubled.exactArea := by
  have honMesh : Mosaic.OnMesh (1 / 2) := OnMesh.iff_den_eq_one.2 (by decide +kernel)
  have hfirst : Span.OnUnitMesh ⟨0, 0.5⟩ := .of_represents represents_zero represents_one_half
    ⟨.zero, honMesh⟩ (by norm_num) (by norm_num)
  have hsecond : Span.OnUnitMesh ⟨0.5, 0.5⟩ := .of_represents represents_one_half
    represents_one_half ⟨honMesh, honMesh⟩ (by norm_num) (by norm_num)
  have hmesh : doubled.OnUnitMesh := by
    intro p hp o
    rcases List.mem_cons.1 hp with rfl | hp
    · cases o <;> exact hfirst
    · rcases List.mem_cons.1 hp with rfl | hp
      · cases o <;> exact hfirst
      · obtain rfl := List.mem_singleton.1 hp
        cases o
        · exact hsecond
        · exact hfirst
  have hpos : ∀ p ∈ doubled.panels, 0 < p.rect.width ∧ 0 < p.rect.height := by decide +kernel
  have hsize : 3 ≤ doubled.size := by decide +kernel
  obtain ⟨hcandidates, hremovals⟩ := exactArea_conserved hmesh hpos
  obtain ⟨cs, hcs⟩ : ∃ cs, doubled.candidates ⟨4, 4⟩ = .ok cs :=
    exists_candidates (by decide) (by decide +kernel) (by decide +kernel)
  have hoffer : ⟨⟨⟨3⟩, ⟨0.5, 0, 0.5, 0.5⟩⟩, .vertical, .before⟩ ∈ doubled.offers ⟨4, 4⟩ :=
    mem_offers.2 ⟨by decide +kernel, by decide +kernel,
      (occupancy_le_size _ _ _).trans_lt (by decide +kernel), nofun⟩
  obtain ⟨t, ht⟩ : ∃ t, doubled.remove ⟨2⟩ = .ok t := by
    have hp : (⟨⟨2⟩, ⟨0, 0, 0.5, 0.5⟩⟩ : Panel Float) ∈ doubled.panels := by decide +kernel
    have husable : ((doubled.erase ⟨2⟩).flank ⟨⟨2⟩, ⟨0, 0, 0.5, 0.5⟩⟩ .vertical .after).Usable
        ⟨0, 0, 0.5, 0.5⟩ := by decide +kernel
    rw [remove_of_three_le hp hsize]
    split
    · next hnone => exact absurd husable (heirs?_eq_none_iff.1 hnone _ _)
    · exact ⟨_, rfl⟩
  refine ⟨hmesh, hpos, by decide +kernel, hsize, ⟨cs, hcs, ?_, ?_⟩, t, ht, ?_⟩
  · rw [candidates_eq_map_offers hcs]
    exact List.ne_nil_of_mem (List.mem_map_of_mem hoffer)
  · exact fun c hc => (hcandidates _ _ hcs c hc).2
  · exact (hremovals hsize _ _ ht).2

end Layout

end Mosaic
