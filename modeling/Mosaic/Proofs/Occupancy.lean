import Mosaic.Proofs.Run
import Mosaic.Proofs.Sampling

/-!
# What a cut does to lines

A cut adds a panel to the lines across it that run through the halved panel, and to no others: a
line along the cut crosses one half at most.  The panel admits the cut only while the lines across
it are below the limit, and by the theory of samples this holds of all of them.

* `Split.lineCount_flip`: the lines across the cut.
* `Split.lineCount_le`: the lines along the cut.
* `Layout.lineCount_of_mem_candidates`: a candidate raises the count of a line by at most one, and
  never past the limit.
-/

namespace Mosaic

open Coordinate

/-! ### Halves and lines -/

namespace Rect.Halved

variable {r kept created : Rect ℚ} {cut : Orientation} {side : Side} {x : ℝ}

/-- A line across the cut crosses both halves if it crosses the halved rectangle. -/
theorem kept_crossedBy_flip (h : r.Halved cut side kept created) :
    kept.CrossedBy cut.flip x ↔ r.CrossedBy cut.flip x :=
  crossedBy_congr (by rw [Orientation.flip_flip, h.kept_along])

theorem kept_crossedBy (h : r.Halved cut side kept created) (hr : ∀ o, (r.along o).Positive)
    (hx : kept.CrossedBy cut x) : r.CrossedBy cut x := by
  obtain ⟨hlow, hupp⟩ := h.kept_includes hr cut.flip
  exact ⟨(Rat.cast_le.2 hlow).trans_lt hx.1, hx.2.trans_le (Rat.cast_le.2 hupp)⟩

/-- A line along the cut does not cross both halves. -/
theorem not_crossedBy_both (h : r.Halved cut side kept created)
    (hx : kept.CrossedBy cut x) : ¬ created.CrossedBy cut x := by
  intro hx'
  have hinner := h.inner_edge
  cases side with
  | before =>
    have hedge : (created.along cut.flip).stop = (kept.along cut.flip).start := hinner
    have hcast : created.upper cut.flip = kept.lower cut.flip := congrArg Rat.cast hedge
    linarith [hx.1, hx'.2]
  | after =>
    have hedge : (created.along cut.flip).start = (kept.along cut.flip).stop := hinner
    have hcast : created.lower cut.flip = kept.upper cut.flip := congrArg Rat.cast hedge
    linarith [hx.2, hx'.1]

/-- A line along the cut that crosses the halved rectangle crosses a half, unless it is the line of
the cut itself. -/
theorem crossedBy_or (h : r.Halved cut side kept created) (hx : r.CrossedBy cut x)
    (hoff : x ≠ kept.lower cut.flip ∧ x ≠ kept.upper cut.flip) :
    kept.CrossedBy cut x ∨ created.CrossedBy cut x := by
  have hinner := h.inner_edge
  have hkept := h.kept_edge
  have hcreated := h.created_edge
  cases side with
  | before =>
    have hcut : created.upper cut.flip = kept.lower cut.flip := congrArg Rat.cast hinner
    have hupp : kept.upper cut.flip = r.upper cut.flip := congrArg Rat.cast hkept
    have hlow : created.lower cut.flip = r.lower cut.flip := congrArg Rat.cast hcreated
    rcases hoff.1.lt_or_gt with hlt | hgt
    · exact Or.inr ⟨hlow ▸ hx.1, hcut ▸ hlt⟩
    · exact Or.inl ⟨hgt, hupp ▸ hx.2⟩
  | after =>
    have hcut : created.lower cut.flip = kept.upper cut.flip := congrArg Rat.cast hinner
    have hlow : kept.lower cut.flip = r.lower cut.flip := congrArg Rat.cast hkept
    have hupp : created.upper cut.flip = r.upper cut.flip := congrArg Rat.cast hcreated
    rcases hoff.2.lt_or_gt with hlt | hgt
    · exact Or.inl ⟨hlow ▸ hx.1, hlt⟩
    · exact Or.inr ⟨hcut ▸ hgt, hupp ▸ hx.2⟩

end Rect.Halved

/-! ### Splits and lines -/

namespace Layout

variable {s t c : Layout ℚ} {p : Panel ℚ} {cut line : Orientation} {kept created : Rect ℚ}
  {id : PanelId} {x : ℝ} {limits : Limits} {cs : List (Layout ℚ)}

theorem lineCount_eq_erase_add (hp : p ∈ s.panels) (line : Orientation) (x : ℝ) :
    s.lineCount line x =
      (s.erase p.id).lineCount line x + if p.rect.CrossedBy line x then 1 else 0 := by
  unfold lineCount
  rw [(perm_cons_erase hp).countP_eq, List.countP_cons]
  simp

namespace Split

theorem lineCount_eq_erase_add (h : s.Split t p cut kept created id) (line : Orientation) (x : ℝ) :
    t.lineCount line x = (s.erase p.id).lineCount line x +
      ((if kept.CrossedBy line x then 1 else 0) + if created.CrossedBy line x then 1 else 0) := by
  unfold lineCount
  rw [h.perm.countP_eq, List.countP_cons, List.countP_cons]
  simp only [decide_eq_true_eq]
  ring

/-- **The lines across the cut that run through the halved panel gain a panel.** -/
theorem lineCount_flip (h : s.Split t p cut kept created id) (x : ℝ) :
    t.lineCount cut.flip x =
      s.lineCount cut.flip x + if p.rect.CrossedBy cut.flip x then 1 else 0 := by
  obtain ⟨side, hhalved⟩ := h.exists_halved
  rw [h.lineCount_eq_erase_add, Layout.lineCount_eq_erase_add h.mem]
  simp only [hhalved.kept_crossedBy_flip, hhalved.symm.kept_crossedBy_flip]
  ring

/-- **The lines along the cut gain none.** -/
theorem lineCount_le (h : s.Split t p cut kept created id) (hpos : ∀ o, (p.rect.along o).Positive)
    (x : ℝ) : t.lineCount cut x ≤ s.lineCount cut x := by
  obtain ⟨side, hhalved⟩ := h.exists_halved
  rw [h.lineCount_eq_erase_add, Layout.lineCount_eq_erase_add h.mem]
  refine Nat.add_le_add_left ?_ _
  by_cases hkept : kept.CrossedBy cut x
  · rw [if_pos hkept, if_neg (hhalved.not_crossedBy_both hkept),
      if_pos (hhalved.kept_crossedBy hpos hkept)]
  · rw [if_neg hkept, zero_add]
    split_ifs with hcreated hp
    · exact le_rfl
    · exact absurd (hhalved.symm.kept_crossedBy hpos hcreated) hp
    · exact Nat.zero_le _
    · exact le_rfl

/-- Off the edges of the halves the lines along the cut lose none either. -/
theorem le_lineCount (h : s.Split t p cut kept created id)
    (hoff : x ≠ kept.lower cut.flip ∧ x ≠ kept.upper cut.flip) :
    s.lineCount cut x ≤ t.lineCount cut x := by
  obtain ⟨side, hhalved⟩ := h.exists_halved
  rw [h.lineCount_eq_erase_add, Layout.lineCount_eq_erase_add h.mem]
  refine Nat.add_le_add_left ?_ _
  by_cases hp : p.rect.CrossedBy cut x
  · rw [if_pos hp]
    rcases hhalved.crossedBy_or hp hoff with hkept | hcreated
    · rw [if_pos hkept]
      exact Nat.le_add_right _ _
    · rw [if_pos hcreated]
      exact Nat.le_add_left _ _
  · rw [if_neg hp]
    exact Nat.zero_le _

/-- A line through a panel that admits the cut has room for one more. -/
theorem lineCount_lt (h : s.Split t p cut kept created id) (hm : s.OnMesh)
    (hadmits : s.Admits limits p cut) (hx : p.rect.CrossedBy cut.flip x) :
    s.lineCount cut.flip x < limits.onLine cut.flip :=
  calc s.lineCount cut.flip x
      ≤ s.crossings cut.flip p.rect := lineCount_le_crossings hm (hm p h.mem) hx
    _ ≤ s.occupancy cut.flip p := le_max_right _ _
    _ < limits.onLine cut.flip := hadmits

/-- What a split of a panel that admits the cut does to the count of a line. -/
theorem lineCount_of_admits (h : s.Split t p cut kept created id) (hm : s.OnMesh)
    (hpos : ∀ o, (p.rect.along o).Positive) (hadmits : s.Admits limits p cut) (line : Orientation)
    (x : ℝ) :
    t.lineCount line x ≤ s.lineCount line x ∨
      line = cut.flip ∧ p.rect.CrossedBy line x ∧ t.lineCount line x = s.lineCount line x + 1 ∧
        t.lineCount line x ≤ limits.onLine line := by
  rcases Orientation.eq_or_eq_flip cut line with rfl | rfl
  · exact Or.inl (h.lineCount_le hpos x)
  · have hcount := h.lineCount_flip x
    split_ifs at hcount with hx
    · have hlt := h.lineCount_lt hm hadmits hx
      exact Or.inr ⟨rfl, hx, hcount, by omega⟩
    · exact Or.inl (by omega)

end Split

/-- **Candidates respect the occupancy of lines.**  A candidate halves one panel.  Every line
crosses at most as many of its panels as the limit allows or as it crossed before.  The count of a
line grows only if the line runs across the cut through the interior of the halved panel, and then
by one and within the limit. -/
theorem lineCount_of_mem_candidates (hpos : ∀ p ∈ s.panels, ∀ o, (p.rect.along o).Positive)
    (hm : s.OnMesh) (hcs : s.candidates limits = .ok cs) (hc : c ∈ cs) :
    ∃ p cut kept created, s.Split c p cut kept created .pending ∧ ∀ line x,
      c.lineCount line x ≤ max (limits.onLine line) (s.lineCount line x) ∧
        (s.lineCount line x < c.lineCount line x →
          line = cut.flip ∧ p.rect.CrossedBy line x ∧
            c.lineCount line x = s.lineCount line x + 1 ∧
              c.lineCount line x ≤ limits.onLine line) := by
  obtain ⟨p, cut, kept, created, hsplit, hadmits⟩ := exists_split_of_mem_candidates hcs hc
  refine ⟨p, cut, kept, created, hsplit, fun line x => ?_⟩
  rcases hsplit.lineCount_of_admits hm (hpos p hsplit.mem) hadmits line x with hle | hgrown
  · exact ⟨hle.trans (le_max_right _ _), fun hlt => absurd hle hlt.not_ge⟩
  · exact ⟨hgrown.2.2.2.trans (le_max_left _ _), fun _ => hgrown⟩

theorem lineCount_candidate_columns :
    ((∀ p ∈ columns.panels, ∀ o, (p.rect.along o).Positive) ∧ columns.OnMesh) ∧
      ∃ cs, columns.candidates ⟨2, 2⟩ = .ok cs ∧ ∃ c ∈ cs,
        ∃ p cut kept created, columns.Split c p cut kept created .pending ∧ ∀ line x,
          c.lineCount line x ≤ max (Limits.onLine ⟨2, 2⟩ line) (columns.lineCount line x) ∧
            (columns.lineCount line x < c.lineCount line x →
              line = cut.flip ∧ p.rect.CrossedBy line x ∧
                c.lineCount line x = columns.lineCount line x + 1 ∧
                  c.lineCount line x ≤ Limits.onLine ⟨2, 2⟩ line) := by
  have hpos : ∀ p ∈ columns.panels, ∀ o, (p.rect.along o).Positive := by decide +kernel
  have hmesh : columns.OnMesh := by decide +kernel
  obtain ⟨cs, hcs, c, hc, -⟩ := successor_columns
  exact ⟨⟨hpos, hmesh⟩, cs, hcs, c, hc, lineCount_of_mem_candidates hpos hmesh hcs hc⟩

end Layout

end Mosaic
