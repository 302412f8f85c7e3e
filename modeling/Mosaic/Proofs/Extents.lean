import Mosaic.Proofs.Occupancy
import Mosaic.Proofs.SplitOnly

/-!
# How thin panels get

Nothing in the rules of splitting asks for a least extent, and yet the limits imply one.  Each cut
across which a panel has been halved has left another panel on every line through it, so in a
layout made by splits alone a panel is at least as long as the crowd on its lines allows.  The
limits bound the crowd as long as the samples of lines are exact, and these are exact as long as the
panels are not too thin.  Both are kept together along a run.

* `Layout.OffEdges line x`: the line at `x` contains no edge of a panel.
* `SplitOnly.two_le_extent_mul`: extents against the crowd on a line off the edges.
* `Layout.uncrowded_of_run`: within limits of at most twenty columns and rows no line of a run
  crosses more panels than the limits allow, and `SplitOnly.pow_le_extent` gives the least extent.
-/

namespace Mosaic

open Coordinate Relation

namespace Layout

/-- The line of the given orientation at a position contains no edge of a panel. -/
def OffEdges (s : Layout ℚ) (line : Orientation) (x : ℝ) : Prop :=
  ∀ p ∈ s.panels, x ≠ p.rect.lower line.flip ∧ x ≠ p.rect.upper line.flip

variable {s t : Layout ℚ} {p q : Panel ℚ} {cut o : Orientation} {kept created : Rect ℚ}
  {id : PanelId} {x : ℝ}

theorem lineCount_pos (hp : p ∈ s.panels) (hx : p.rect.CrossedBy o x) : 1 ≤ s.lineCount o x :=
  List.countP_pos_iff.2 ⟨p, hp, decide_eq_true hx⟩

/-! ### Lines off the edges -/

namespace Split

/-- The edges of the halves are among the edges afterwards. -/
theorem ne_of_offEdges (h : s.Split t p cut kept created id) (hoff : t.OffEdges o x) :
    (x ≠ kept.lower o.flip ∧ x ≠ kept.upper o.flip) ∧
      x ≠ created.lower o.flip ∧ x ≠ created.upper o.flip :=
  ⟨hoff _ h.mem_kept, hoff _ (h.mem_iff.2 (Or.inr (Or.inl rfl)))⟩

/-- A split takes no edges away. -/
theorem offEdges (h : s.Split t p cut kept created id) (hoff : t.OffEdges o x) :
    s.OffEdges o x := by
  obtain ⟨hkept, hcreated⟩ := h.ne_of_offEdges hoff
  intro q hq
  by_cases hqp : q = p
  · subst hqp
    obtain ⟨side, hhalved⟩ := h.exists_halved
    rcases Orientation.eq_or_eq_flip cut o with rfl | rfl
    · -- along the cut the halves share out the two edges
      have hfar : kept.edge o side.flip = q.rect.edge o side.flip := hhalved.kept_edge
      have hnear : created.edge o side = q.rect.edge o side := hhalved.created_edge
      cases side with
      | before =>
        have hupp : kept.upper o.flip = q.rect.upper o.flip := congrArg Rat.cast hfar
        have hlow : created.lower o.flip = q.rect.lower o.flip := congrArg Rat.cast hnear
        exact ⟨hlow ▸ hcreated.1, hupp ▸ hkept.2⟩
      | after =>
        have hlow : kept.lower o.flip = q.rect.lower o.flip := congrArg Rat.cast hfar
        have hupp : created.upper o.flip = q.rect.upper o.flip := congrArg Rat.cast hnear
        exact ⟨hlow ▸ hkept.1, hupp ▸ hcreated.2⟩
    · have halong : kept.along cut.flip.flip = q.rect.along cut.flip.flip := by
        rw [Orientation.flip_flip, hhalved.kept_along]
      unfold Rect.lower Rect.upper at hkept ⊢
      rw [halong] at hkept
      exact hkept
  · exact hoff q (h.mem_iff.2 (Or.inr (Or.inr ⟨hq, hqp⟩)))

/-- Off the edges no line loses a panel. -/
theorem lineCount_mono (h : s.Split t p cut kept created id) (hoff : t.OffEdges o x) :
    s.lineCount o x ≤ t.lineCount o x := by
  rcases Orientation.eq_or_eq_flip cut o with rfl | rfl
  · exact h.le_lineCount (h.ne_of_offEdges hoff).1
  · rw [h.lineCount_flip]
    exact Nat.le_add_right _ _

/-- A half is shorter by one half only along the lines that have gained a panel. -/
theorem two_le_extent_mul (h : s.Split t p cut kept created id)
    (hpos : ∀ o, (p.rect.along o).Positive) {r k : Rect ℚ} {side : Side}
    (hhalved : p.rect.Halved cut side r k) (hoff : t.OffEdges o x) (hx : r.CrossedBy o x)
    (hp : p.rect.CrossedBy o x → 2 ≤ (p.rect.along o).extent * 2 ^ s.lineCount o x) :
    2 ≤ (r.along o).extent * 2 ^ t.lineCount o x := by
  rcases Orientation.eq_or_eq_flip cut o with rfl | rfl
  · have hmono : (2 : ℚ) ^ s.lineCount o x ≤ 2 ^ t.lineCount o x :=
      pow_le_pow_right₀ one_le_two (h.lineCount_mono hoff)
    rw [hhalved.kept_along]
    exact (hp (hhalved.kept_crossedBy hpos hx)).trans
      (mul_le_mul_of_nonneg_left hmono (hpos o).le)
  · have hcross : p.rect.CrossedBy cut.flip x := hhalved.kept_crossedBy_flip.1 hx
    rw [h.lineCount_flip, if_pos hcross, hhalved.kept_extent, pow_succ]
    linarith [hp hcross]

end Split

namespace SplitOnly

/-- **On a line off the edges, a panel that was halved `n` times across it shares the line with `n`
others at least.** -/
theorem two_le_extent_mul (h : s.SplitOnly) :
    ∀ p ∈ s.panels, ∀ o x, s.OffEdges o x → p.rect.CrossedBy o x →
      2 ≤ (p.rect.along o).extent * 2 ^ s.lineCount o x := by
  induction h with
  | initial c id =>
    intro p hp o x _ hx
    have hpow : (2 : ℚ) ^ 1 ≤ 2 ^ (c.initial id : Layout ℚ).lineCount o x :=
      pow_le_pow_right₀ one_le_two (lineCount_pos hp hx)
    rw [mem_panels_single.1 hp, Rect.along_unit]
    linarith
  | @split s t limits id hs ht ih =>
    obtain ⟨p, cut, kept, created, hsplit⟩ := ht.exists_split
    obtain ⟨side, hhalved⟩ := hsplit.exists_halved
    have hpos := hs.perfect.positive p hsplit.mem
    intro q hq o x hoff hx
    have hs' := hsplit.offEdges hoff
    rcases hsplit.mem_iff.1 hq with rfl | rfl | ⟨hq, -⟩
    · exact hsplit.two_le_extent_mul hpos hhalved hoff hx (ih p hsplit.mem o x hs')
    · exact hsplit.two_le_extent_mul hpos hhalved.symm hoff hx (ih p hsplit.mem o x hs')
    · have hmono : (2 : ℚ) ^ s.lineCount o x ≤ 2 ^ t.lineCount o x :=
        pow_le_pow_right₀ one_le_two (hsplit.lineCount_mono hoff)
      have hqpos : 0 < (q.rect.along o).extent := hs.perfect.positive q hq o
      exact (ih q hq o x hs' hx).trans (mul_le_mul_of_nonneg_left hmono hqpos.le)

/-- Lines with `n` panels at most leave each panel an extent of at least `2 ^ (1 - n)`. -/
theorem pow_le_extent (h : s.SplitOnly) {n : ℕ} (hn : 1 ≤ n) (hcount : ∀ x, s.lineCount o x ≤ n)
    (hp : p ∈ s.panels) : (1 / 2) ^ (n - 1) ≤ (p.rect.along o).extent := by
  have hpos := h.perfect.positive p hp
  obtain ⟨x, hlow, hupp, hoff⟩ := s.exists_off_edges o.flip (Rect.lower_lt_upper hpos o.flip)
  have htwo := h.two_le_extent_mul p hp o x hoff ⟨hlow, hupp⟩
  have hpow : (2 : ℚ) ^ s.lineCount o x ≤ 2 ^ n := pow_le_pow_right₀ one_le_two (hcount x)
  have hle : 2 ≤ (p.rect.along o).extent * 2 ^ n :=
    htwo.trans (mul_le_mul_of_nonneg_left hpow (hpos o).le)
  obtain ⟨m, rfl⟩ := Nat.exists_eq_add_of_le' hn
  rw [Nat.add_sub_cancel, one_div, inv_pow, inv_le_iff_one_le_mul₀ (by positivity)]
  rw [pow_succ] at hle
  linarith

end SplitOnly

/-! ### Runs within limits -/

/-- A split that the settings allow: a candidate whose pending panel has got a label. -/
def Grows {α : Type} [Coordinate α] (c : Config) (s t : Layout α) : Prop :=
  ∃ cs, c.candidates s = .ok cs ∧ ∃ k ∈ cs, ∃ id, k.commit id = .ok t

theorem grows_iff {α : Type} [Coordinate α] {c : Config} {s t : Layout α} :
    Grows c s t ↔ ∃ id, s.Successor c.limits id t := by
  constructor
  · rintro ⟨cs, hcs, k, hk, id, ht⟩
    exact ⟨id, cs, hcs, k, hk, ht⟩
  · rintro ⟨id, cs, hcs, k, hk, ht⟩
    exact ⟨cs, hcs, k, hk, id, ht⟩

/-- The layout is made by splits alone, and every line is within the limits. -/
structure Uncrowded (s : Layout ℚ) (limits : Limits) : Prop where
  splitOnly : s.SplitOnly
  lineCount_le : ∀ line x, s.lineCount line x ≤ limits.onLine line

theorem uncrowded_initial (c : Config) (id : PanelId) (hlimits : ∀ o, 1 ≤ c.limits.onLine o) :
    (c.initial id : Layout ℚ).Uncrowded c.limits :=
  ⟨.initial c id, fun line _ => List.countP_le_length.trans (hlimits line)⟩

/-- Limits of at most twenty keep the panels of an uncrowded layout from getting thinner than the
mesh is wide. -/
theorem Uncrowded.atLeastMesh {limits : Limits} (h : s.Uncrowded limits)
    (hlimits : ∀ o, 1 ≤ limits.onLine o ∧ limits.onLine o ≤ 20) : s.AtLeastMesh := by
  intro p hp o
  obtain ⟨hone, htwenty⟩ := hlimits o
  calc mesh
      = (1 / 2) ^ 19 := by norm_num [mesh]
    _ ≤ (1 / 2) ^ (limits.onLine o - 1) :=
        pow_le_pow_of_le_one (by norm_num) (by norm_num) (by omega)
    _ ≤ (p.rect.along o).extent := h.splitOnly.pow_le_extent hone (h.lineCount_le o) hp

/-- A split that the settings allow keeps a layout uncrowded. -/
theorem Uncrowded.grows {c : Config} (h : s.Uncrowded c.limits)
    (hlimits : ∀ o, 1 ≤ c.limits.onLine o ∧ c.limits.onLine o ≤ 20) (ht : Grows c s t) :
    t.Uncrowded c.limits := by
  obtain ⟨id, hsuccessor⟩ := grows_iff.1 ht
  obtain ⟨p, cut, kept, created, hsplit, hadmits⟩ := hsuccessor.exists_split_of_admits
  have hm : s.OnMesh := h.splitOnly.onMesh (h.atLeastMesh hlimits)
  have hpos := h.splitOnly.perfect.positive p hsplit.mem
  refine ⟨h.splitOnly.split hsuccessor, fun line x => ?_⟩
  rcases hsplit.lineCount_of_admits hm hpos hadmits line x with hle | ⟨-, -, -, hle⟩
  · exact hle.trans (h.lineCount_le line x)
  · exact hle

theorem Uncrowded.run {c : Config} (h : s.Uncrowded c.limits)
    (hlimits : ∀ o, 1 ≤ c.limits.onLine o ∧ c.limits.onLine o ≤ 20)
    (ht : ReflTransGen (Grows c) s t) : t.Uncrowded c.limits := by
  induction ht with
  | refl => exact h
  | tail _ hstep ih => exact ih.grows hlimits hstep

/-- **Every line of a run is within the limits.** -/
theorem uncrowded_of_run {c : Config} {id : PanelId}
    (hlimits : ∀ o, 1 ≤ c.limits.onLine o ∧ c.limits.onLine o ≤ 20)
    (h : ReflTransGen (Grows c) (c.initial id) s) : s.Uncrowded c.limits :=
  (uncrowded_initial c id fun o => (hlimits o).1).run hlimits h

end Layout

end Mosaic
