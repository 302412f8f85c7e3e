import Mosaic.Proofs.ExactSamples
import Mosaic.Proofs.SplitOnly

/-!
# Counts of cuts

Each panel of a layout made by splits alone stems from some number of cuts in each direction.
Halving is exact for doubles as long as the numbers have room in a mantissa, so up to 52 cuts in a
direction the extent is that power of one half, and the start is a multiple of it.

* `Layout.Stems cuts`: splits alone have led to the layout, and `cuts` counts the cuts that each
  panel stems from.  By `Layout.exists_stems_iff` every run of splits has its counts.
* `Span.AlignedAt j`: the extent is the `j`-th power of one half, and the start is a multiple of it.
* `Layout.Stems.cuts_lt_size`: the counts are less than the number of panels, so by
  `Layout.exists_alignedAt_of_run` few panels are aligned after any run.
* `Layout.aligned_of_stems`: panels are aligned as their counts say, and any two extents in one
  direction are nested or have no stretch in common.
-/

namespace Mosaic

open Coordinate Binary64 Relation

/-! ### Counting -/

/-- The counts after the panel with the label `p` has been cut and the half that was created has got
the label `id`: for both halves there is one more in the direction that the cut halves. -/
def cutsAfter (cuts : PanelId → Orientation → ℕ) (p id : PanelId) (cut : Orientation) :
    PanelId → Orientation → ℕ :=
  fun k o => if k = p ∨ k = id then cuts p o + (if o = cut.flip then 1 else 0) else cuts k o

section CutsAfter

variable {cuts : PanelId → Orientation → ℕ} {p id k : PanelId} {cut : Orientation}

theorem cutsAfter_along (hk : k = p ∨ k = id) : cutsAfter cuts p id cut k cut = cuts p cut := by
  rw [cutsAfter, if_pos hk, if_neg cut.flip_ne.symm, add_zero]

theorem cutsAfter_across (hk : k = p ∨ k = id) :
    cutsAfter cuts p id cut k cut.flip = cuts p cut.flip + 1 := by
  rw [cutsAfter, if_pos hk, if_pos rfl]

theorem cutsAfter_of_ne (hp : k ≠ p) (hid : k ≠ id) (o : Orientation) :
    cutsAfter cuts p id cut k o = cuts k o := by
  rw [cutsAfter, if_neg (not_or.2 ⟨hp, hid⟩)]

/-- A panel that keeps its label does not lose any cuts. -/
theorem le_cutsAfter (hid : k ≠ id) (o : Orientation) : cuts k o ≤ cutsAfter cuts p id cut k o := by
  rcases eq_or_ne k p with rfl | hp
  · rcases Orientation.eq_or_eq_flip cut o with rfl | rfl
    · rw [cutsAfter_along (Or.inl rfl)]
    · rw [cutsAfter_across (Or.inl rfl)]
      exact Nat.le_succ _
  · rw [cutsAfter_of_ne hp hid]

end CutsAfter

namespace Layout

section Runs

variable {α : Type} [Coordinate α] {s t : Layout α} {cuts : PanelId → Orientation → ℕ}

/-- Splits alone have led to the layout, whatever the limits and the labels, and each panel stems
from as many cuts that have halved it in a direction as `cuts` says. -/
inductive Stems : Layout α → (PanelId → Orientation → ℕ) → Prop
  | initial (c : Config) (id : PanelId) : Stems (c.initial id) fun _ _ => 0
  | split {s t : Layout α} {cuts : PanelId → Orientation → ℕ} {limits : Limits} {p : Panel α}
      {cut : Orientation} {kept created : Rect α} {id : PanelId} (h : Stems s cuts)
      (ht : s.Successor limits id t) (hsplit : s.Split t p cut kept created id) :
      Stems t (cutsAfter cuts p.id id cut)

/-- **Every run of splits has its counts.** -/
theorem exists_stems_iff : (∃ cuts, s.Stems cuts) ↔
    ∃ (c : Config) (id : PanelId),
      ReflTransGen (fun s t => ∃ limits id, s.Successor limits id t) (c.initial id) s := by
  constructor
  · rintro ⟨cuts, h⟩
    induction h with
    | initial c id => exact ⟨c, id, .refl⟩
    | split _ ht _ ih =>
      obtain ⟨c, id, hrun⟩ := ih
      exact ⟨c, id, hrun.tail ⟨_, _, ht⟩⟩
  · rintro ⟨c, id, hrun⟩
    induction hrun with
    | refl => exact ⟨_, .initial c id⟩
    | tail _ hstep ih =>
      obtain ⟨limits, id, ht⟩ := hstep
      obtain ⟨cuts, h⟩ := ih
      obtain ⟨p, cut, kept, created, hsplit⟩ := ht.exists_split
      exact ⟨_, h.split ht hsplit⟩

/-- What bounds the counts after a split has bounded them before. -/
theorem Split.cuts_le_of_cutsAfter_le {p : Panel α} {cut : Orientation} {kept created : Rect α}
    {id : PanelId} {n : ℕ} (hsplit : s.Split t p cut kept created id)
    (h : ∀ q ∈ t.panels, ∀ o, cutsAfter cuts p.id id cut q.id o ≤ n) :
    ∀ q ∈ s.panels, ∀ o, cuts q.id o ≤ n := by
  intro q hq o
  have hle : cuts q.id o ≤ cutsAfter cuts p.id id cut q.id o := le_cutsAfter (hsplit.id_ne hq) o
  refine hle.trans ?_
  rcases eq_or_ne q p with rfl | hne
  · exact h ⟨q.id, kept⟩ hsplit.mem_kept o
  · exact h q (hsplit.mem_iff.2 (Or.inr (Or.inr ⟨hq, hne⟩))) o

/-- **Each cut has made another panel**, so a panel stems from fewer cuts than there are panels. -/
theorem Stems.cuts_lt_size (h : s.Stems cuts) :
    ∀ p ∈ s.panels, ∀ o : Orientation, cuts p.id o + cuts p.id o.flip < s.size := by
  induction h with
  | initial c id => exact fun _ _ _ => Nat.one_pos
  | @split s t cuts limits p cut kept created id _ _ hsplit ih =>
    intro q hq o
    rw [hsplit.size_eq]
    rcases hsplit.half_or_mem hq with ⟨hhalf, -⟩ | ⟨hq, hp, hid⟩
    · have hlt := ih p hsplit.mem o
      rcases Orientation.eq_or_eq_flip cut o with rfl | rfl
      · rw [cutsAfter_along hhalf, cutsAfter_across hhalf]
        omega
      · rw [Orientation.flip_flip] at hlt ⊢
        rw [cutsAfter_along hhalf, cutsAfter_across hhalf]
        omega
    · rw [cutsAfter_of_ne hp hid, cutsAfter_of_ne hp hid]
      exact (ih q hq o).trans (Nat.lt_succ_self _)

theorem Stems.cuts_le_of_size_le (h : s.Stems cuts) {n : ℕ} (hsize : s.size ≤ n + 1) :
    ∀ p ∈ s.panels, ∀ o, cuts p.id o ≤ n := by
  intro p hp o
  have hlt := h.cuts_lt_size p hp o
  omega

end Runs

end Layout

/-! ### Powers of one half -/

namespace Binary64

/-- A double has room for multiples of powers of one half, up to the length of a mantissa. -/
theorem representable_mul_half_pow {m j : ℕ} (hm : m < 2 ^ 53) (hj : j ≤ 53) :
    Representable (m * (1 / 2) ^ j) := by
  have hpow : ((1 / 2 : ℚ)) ^ j = 2 ^ (-(j : ℤ)) := by
    rw [zpow_neg, zpow_natCast, one_div, inv_pow]
  rw [hpow, ← Int.cast_natCast m]
  refine representable_mul_two_pow ?_ (by omega) (by omega)
  rw [Nat.abs_cast]
  exact_mod_cast hm

/-- Halving a power of one half is exact. -/
theorem represents_half_pow_succ {a : Float} {j : ℕ} (h : Represents a ((1 / 2) ^ j))
    (hj : j ≤ 53) : Represents (half a) ((1 / 2) ^ (j + 1)) := by
  have hhalf : ((1 / 2 : ℚ)) ^ (j + 1) = (1 / 2) ^ j / 2 := by
    rw [pow_succ]
    ring
  have hlarge : (2 : ℚ) ^ (-1021 : ℤ) ≤ (1 / 2) ^ j := by
    rw [one_div, inv_pow, ← zpow_natCast, ← zpow_neg]
    exact zpow_le_zpow_right₀ (by norm_num) (by omega)
  rw [hhalf]
  refine represents_half h (Or.inr (hlarge.trans (le_abs_self _)))

end Binary64

namespace Span

variable {s t : Span Float} {j k : ℕ}

/-- The extent is the `j`-th power of one half, and the start is a multiple of it below one. -/
def AlignedAt (s : Span Float) (j : ℕ) : Prop :=
  ∃ m : ℕ, m < 2 ^ j ∧ Represents s.extent ((1 / 2) ^ j) ∧ Represents s.start (m * (1 / 2) ^ j)

theorem AlignedAt.aligned (h : s.AlignedAt j) : s.values.Aligned := by
  obtain ⟨m, -, hextent, hstart⟩ := h
  have hvalue : s.values.extent = (1 / 2) ^ j := hextent.value_eq
  refine ⟨j, m, hvalue, ?_⟩
  rw [hvalue]
  exact hstart.value_eq

/-- The stop is exact. -/
theorem AlignedAt.represents_stop (h : s.AlignedAt j) (hj : j ≤ 52) :
    Represents s.stop s.values.stop := by
  obtain ⟨m, hm, hextent, hstart⟩ := h
  have hround := rounds_add hstart.self hextent.self
  have hroom : m + 1 < 2 ^ 53 := by
    have hpow := Nat.pow_le_pow_right two_pos hj
    omega
  have hsum : value s.start + value s.extent = (m + 1 : ℕ) * (1 / 2) ^ j := by
    rw [hstart.value_eq, hextent.value_eq]
    push_cast
    ring
  refine hround.denotes ?_
  rw [hsum]
  exact representable_mul_half_pow hroom (hj.trans (by norm_num))

/-- **Both halves of an aligned span are aligned.** -/
theorem AlignedAt.halves (h : s.AlignedAt j) (hj : j < 53) :
    s.halves.1.AlignedAt (j + 1) ∧ s.halves.2.AlignedAt (j + 1) := by
  obtain ⟨m, hm, hextent, hstart⟩ := h
  have hhalf := represents_half_pow_succ hextent hj.le
  have hpow : (2 : ℕ) ^ (j + 1) ≤ 2 ^ 53 := Nat.pow_le_pow_right two_pos hj
  have hsucc : (2 : ℕ) ^ (j + 1) = 2 * 2 ^ j := pow_succ' 2 j
  have htwice : ((1 / 2 : ℚ)) ^ j = 2 * (1 / 2) ^ (j + 1) := by
    rw [pow_succ]
    ring
  rw [htwice] at hstart hextent
  -- in units of the halves the span begins at `2 * m`, and its middle is `2 * m + 1`
  have hbefore : (m : ℚ) * (2 * (1 / 2) ^ (j + 1)) = (2 * m : ℕ) * (1 / 2) ^ (j + 1) := by
    push_cast
    ring
  have hafter : ((2 * m : ℕ) : ℚ) * (1 / 2) ^ (j + 1) + (1 / 2) ^ (j + 1) =
      (2 * m + 1 : ℕ) * (1 / 2) ^ (j + 1) := by
    push_cast
    ring
  have hrest : 2 * (1 / 2 : ℚ) ^ (j + 1) - (1 / 2) ^ (j + 1) = (1 : ℕ) * (1 / 2) ^ (j + 1) := by
    push_cast
    ring
  rw [hbefore] at hstart
  have hmiddle := rounds_add hstart hhalf
  have hdifference := rounds_sub hextent hhalf
  rw [hafter] at hmiddle
  rw [hrest] at hdifference
  have hmiddle := hmiddle.denotes (representable_mul_half_pow (by omega) hj)
  have hdifference := hdifference.denotes (representable_mul_half_pow (by norm_num) hj)
  rw [Nat.cast_one, one_mul] at hdifference
  exact ⟨⟨2 * m, by omega, hhalf, hstart⟩, 2 * m + 1, by omega, hdifference, hmiddle⟩

/-- Aligned spans are nested, or have no stretch in common. -/
theorem AlignedAt.nested (hs : s.AlignedAt j) (ht : t.AlignedAt k) :
    s.values.Includes t.values ∨ t.values.Includes s.values ∨ ¬ s.values.Meets t.values := by
  by_cases hmeets : s.values.Meets t.values
  · rcases hs.aligned.nested ht.aligned hmeets with h | h
    · exact Or.inl h
    · exact Or.inr (Or.inl h)
  · exact Or.inr (Or.inr hmeets)

end Span

theorem Rect.alignedAt_unit (o : Orientation) : ((unit : Rect Float).along o).AlignedAt 0 := by
  refine ⟨0, by norm_num, ?_, ?_⟩
  · rw [pow_zero]
    cases o <;> exact represents_one
  · rw [Nat.cast_zero, zero_mul]
    cases o <;> exact represents_zero

/-- The halves of a rectangle are aligned across the cut, to the next power. -/
theorem Rect.alignedAt_halfAt {r : Rect Float} {cut : Orientation} {j : ℕ}
    (h : (r.along cut.flip).AlignedAt j) (hj : j < 53) (side : Side) :
    ((r.halfAt cut side).along cut.flip).AlignedAt (j + 1) := by
  obtain ⟨hbefore, hafter⟩ := h.halves hj
  cases side with
  | before => rwa [along_flip_halfAt_before]
  | after => rwa [along_flip_halfAt_after]

/-! ### Runs -/

namespace Layout

variable {s t : Layout Float} {cuts : PanelId → Orientation → ℕ}

/-- A split keeps panels aligned as their counts say. -/
theorem Split.alignedAt {p : Panel Float} {cut : Orientation} {kept created : Rect Float}
    {id : PanelId} (hsplit : s.Split t p cut kept created id)
    (hs : ∀ q ∈ s.panels, ∀ o, (q.rect.along o).AlignedAt (cuts q.id o))
    (hroom : cuts p.id cut.flip < 53) :
    ∀ q ∈ t.panels, ∀ o, (q.rect.along o).AlignedAt (cutsAfter cuts p.id id cut q.id o) := by
  intro q hq o
  rcases hsplit.half_or_mem hq with ⟨hhalf, side, hrect⟩ | ⟨hq, hp, hid⟩
  · rw [hrect]
    rcases Orientation.eq_or_eq_flip cut o with rfl | rfl
    · rw [cutsAfter_along hhalf, Rect.along_halfAt]
      exact hs p hsplit.mem _
    · rw [cutsAfter_across hhalf]
      exact Rect.alignedAt_halfAt (hs p hsplit.mem cut.flip) hroom side
  · rw [cutsAfter_of_ne hp hid]
    exact hs q hq o

/-- **Panels are aligned as their counts say**, up to the length of a mantissa. -/
theorem Stems.alignedAt (h : s.Stems cuts) (hcuts : ∀ p ∈ s.panels, ∀ o, cuts p.id o ≤ 53) :
    ∀ p ∈ s.panels, ∀ o, (p.rect.along o).AlignedAt (cuts p.id o) := by
  induction h with
  | initial c id =>
    intro p hp o
    rw [mem_panels_single.1 hp]
    exact Rect.alignedAt_unit o
  | @split s t cuts limits p cut kept created id _ _ hsplit ih =>
    have hroom := hcuts _ hsplit.mem_kept cut.flip
    rw [cutsAfter_across (Or.inl rfl)] at hroom
    exact hsplit.alignedAt (ih (hsplit.cuts_le_of_cutsAfter_le hcuts)) hroom

/-- Up to 54 panels are aligned, however the layout has been split. -/
theorem exists_alignedAt_of_run {c : Config} {id : PanelId}
    (hrun : ReflTransGen (fun s t => ∃ limits id, s.Successor limits id t) (c.initial id) s)
    (hsize : s.size ≤ 54) :
    ∀ p ∈ s.panels, ∀ o, ∃ j < s.size, (p.rect.along o).AlignedAt j := by
  obtain ⟨cuts, h⟩ := exists_stems_iff.2 ⟨c, id, hrun⟩
  intro p hp o
  have hlt := h.cuts_lt_size p hp o
  exact ⟨cuts p.id o, by omega, h.alignedAt (h.cuts_le_of_size_le hsize) p hp o⟩

/-- **Layouts made by splits alone stay aligned.**  Take any run of splits in double precision after
which no panel stems from more than 52 cuts in one direction.  Then all edges are exact, each extent
is the power of one half that the count of cuts says, each start is a multiple of it below one, and
any two extents in one direction are nested or have no stretch in common. -/
theorem aligned_of_stems (h : s.Stems cuts) (hcuts : ∀ p ∈ s.panels, ∀ o, cuts p.id o ≤ 52) :
    (∀ p ∈ s.panels, ∀ o, (p.rect.along o).AlignedAt (cuts p.id o) ∧
        Represents (p.rect.along o).stop (p.rect.along o).values.stop) ∧
      ∀ p ∈ s.panels, ∀ q ∈ s.panels, ∀ o,
        (p.rect.along o).values.Includes (q.rect.along o).values ∨
          (q.rect.along o).values.Includes (p.rect.along o).values ∨
            ¬ (p.rect.along o).values.Meets (q.rect.along o).values := by
  have haligned := h.alignedAt fun p hp o => (hcuts p hp o).trans (by norm_num)
  refine ⟨fun p hp o => ⟨haligned p hp o, ?_⟩, fun p hp q hq o => ?_⟩
  · exact (haligned p hp o).represents_stop (hcuts p hp o)
  · exact (haligned p hp o).nested (haligned q hq o)

theorem successor_initial_twoColumns :
    (Config.standard.initial ⟨1⟩ : Layout Float).Successor ⟨4, 4⟩ ⟨2⟩ twoColumns := by
  refine successor_iff_offers.2 ⟨⟨by decide, by decide +kernel, by decide +kernel⟩,
    ⟨⟨⟨1⟩, .unit⟩, .vertical, .before⟩, ⟨by decide +kernel, by decide +kernel, ?_, nofun⟩,
    by decide +kernel⟩
  exact (occupancy_le_size _ _ _).trans_lt (by decide +kernel)

theorem successor_twoColumns : twoColumns.Successor ⟨4, 4⟩ ⟨3⟩ columnBesideHalves := by
  refine successor_iff_offers.2 ⟨⟨by decide, by decide +kernel, by decide +kernel⟩,
    ⟨⟨⟨2⟩, ⟨0.5, 0, 0.5, 1⟩⟩, .horizontal, .before⟩,
    ⟨by decide +kernel, by decide +kernel, ?_, nofun⟩, by decide +kernel⟩
  exact (occupancy_le_size _ _ _).trans_lt (by decide +kernel)

/-- The column stems from one cut, and the halves stem from two. -/
theorem aligned_of_stems_columnBesideHalves :
    ∃ cuts, columnBesideHalves.Stems cuts ∧
      (∀ p ∈ columnBesideHalves.panels, ∀ o, cuts p.id o ≤ 52) ∧
      cuts ⟨1⟩ .vertical = 0 ∧ cuts ⟨3⟩ .vertical = 1 ∧
      (∀ p ∈ columnBesideHalves.panels, ∀ o, (p.rect.along o).AlignedAt (cuts p.id o)) ∧
      ∀ p ∈ columnBesideHalves.panels, ∀ q ∈ columnBesideHalves.panels, ∀ o,
        (p.rect.along o).values.Includes (q.rect.along o).values ∨
          (q.rect.along o).values.Includes (p.rect.along o).values ∨
            ¬ (p.rect.along o).values.Meets (q.rect.along o).values := by
  have hfirst : (Config.standard.initial ⟨1⟩ : Layout Float).Split twoColumns ⟨⟨1⟩, .unit⟩
      .vertical ⟨0, 0, 0.5, 1⟩ ⟨0.5, 0, 0.5, 1⟩ ⟨2⟩ :=
    ⟨by decide, by decide +kernel, by decide +kernel, Or.inl (by decide +kernel),
      by decide +kernel⟩
  have hsecond : twoColumns.Split columnBesideHalves ⟨⟨2⟩, ⟨0.5, 0, 0.5, 1⟩⟩
      .horizontal ⟨0.5, 0, 0.5, 0.5⟩ ⟨0.5, 0.5, 0.5, 0.5⟩ ⟨3⟩ :=
    ⟨by decide, by decide +kernel, by decide +kernel, Or.inl (by decide +kernel),
      by decide +kernel⟩
  have hstems := ((Stems.initial Config.standard ⟨1⟩).split successor_initial_twoColumns
    hfirst).split successor_twoColumns hsecond
  have hcuts := hstems.cuts_le_of_size_le (n := 52) (by decide +kernel)
  obtain ⟨haligned, hnested⟩ := aligned_of_stems hstems hcuts
  exact ⟨_, hstems, hcuts, by decide, by decide, fun p hp o => (haligned p hp o).1, hnested⟩

end Layout

end Mosaic
