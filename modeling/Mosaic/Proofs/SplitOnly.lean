import Mosaic.Proofs.Run

/-!
# Layouts made by splits alone

Such a layout remembers little of its history, but two things survive every further split.  All
spans are aligned: an extent is a power of one half, and the start is a multiple of it.  And every
panel but the only one has a flush side: the side where it was cut last faces the other half of the
cut, which may have been cut again, but never past the ends of the side.

* `Span.Aligned.nested`: of two aligned spans with a stretch in common, one includes the other.
* `Layout.SplitOnly`: the layouts that splits alone lead to.
* `SplitOnly.aligned`: their spans are aligned.  If none is shorter than the mesh is wide, they are
  on the mesh.
* `SplitOnly.exists_flush`: their panels have flush sides, so by `SplitOnly.removable` each of them
  can be removed.
-/

namespace Mosaic

open Coordinate

/-! ### Aligned spans -/

namespace Span

/-- The extent is a power of one half, and the span starts at a multiple of it. -/
def Aligned (s : Span ℚ) : Prop :=
  ∃ j m : ℕ, s.extent = (1 / 2) ^ j ∧ s.start = m * s.extent

variable {s t : Span ℚ}

theorem Aligned.positive (h : s.Aligned) : s.Positive := by
  obtain ⟨j, m, hextent, -⟩ := h
  unfold Positive
  rw [hextent]
  positivity

/-- A half of an aligned span is aligned. -/
theorem Aligned.half (h : s.Aligned) (hextent : t.extent = s.extent / 2)
    (hend : t.start = s.start ∨ t.stop = s.stop) : t.Aligned := by
  obtain ⟨j, m, hpow, hstart⟩ := h
  have hpow' : t.extent = (1 / 2) ^ (j + 1) := by
    rw [hextent, hpow, pow_succ]
    ring
  rcases hend with hend | hend
  · refine ⟨j + 1, 2 * m, hpow', ?_⟩
    rw [hend, hstart, hextent]
    push_cast
    ring
  · refine ⟨j + 1, 2 * m + 1, hpow', ?_⟩
    rw [stop_eq, stop_eq] at hend
    rw [eq_sub_of_add_eq hend, hstart, hextent]
    push_cast
    ring

/-- A power of one half is a multiple of the higher ones. -/
theorem half_pow_eq {j k : ℕ} (h : j ≤ k) :
    ((1 / 2 : ℚ)) ^ j = (2 ^ (k - j) : ℕ) * (1 / 2) ^ k := by
  rw [← Nat.add_sub_of_le h, pow_add, Nat.add_sub_cancel_left]
  push_cast
  rw [mul_left_comm, ← mul_pow]
  norm_num

/-- An aligned span that is not shorter than the mesh is wide is on the mesh. -/
theorem Aligned.onMesh (h : s.Aligned) (hmin : mesh ≤ s.extent) : s.OnMesh := by
  obtain ⟨j, m, hextent, hstart⟩ := h
  have hmesh : mesh = (1 / 2) ^ 19 := by norm_num [mesh]
  have hj : j ≤ 19 := by
    rw [hmesh, hextent] at hmin
    exact (pow_le_pow_iff_right_of_lt_one₀ (by norm_num) (by norm_num)).1 hmin
  have hmultiple : s.extent = (2 ^ (19 - j) : ℕ) * mesh := by
    rw [hextent, hmesh, half_pow_eq hj]
  refine ⟨⟨(m * 2 ^ (19 - j) : ℕ), ?_⟩, ⟨(2 ^ (19 - j) : ℕ), ?_⟩⟩
  · rw [hstart, hmultiple]
    push_cast
    ring
  · rw [hmultiple]
    push_cast
    ring

/-- An aligned span includes the aligned spans that are not longer and have a stretch in common with
it. -/
theorem Aligned.includes_of_le (hs : s.Aligned) (ht : t.Aligned) (hle : t.extent ≤ s.extent)
    (hmeets : s.Meets t) : s.Includes t := by
  have hpos : 0 < t.extent := ht.positive
  obtain ⟨j, m, hextent, hstart⟩ := hs
  obtain ⟨k, n, hextent', hstart'⟩ := ht
  have hjk : j ≤ k := by
    rw [hextent, hextent'] at hle
    exact (pow_le_pow_iff_right_of_lt_one₀ (by norm_num) (by norm_num)).1 hle
  -- in units of the shorter span the ends of both are whole numbers
  have hmultiple : s.extent = (2 ^ (k - j) : ℕ) * t.extent := by
    rw [hextent, hextent', half_pow_eq hjk]
  have hs_start : s.start = (m * 2 ^ (k - j) : ℕ) * t.extent := by
    rw [hstart, hmultiple]
    push_cast
    ring
  have hs_stop : s.stop = (m * 2 ^ (k - j) + 2 ^ (k - j) : ℕ) * t.extent := by
    rw [stop_eq, hs_start, hmultiple]
    push_cast
    ring
  have ht_stop : t.stop = (n + 1 : ℕ) * t.extent := by
    rw [stop_eq, hstart']
    push_cast
    ring
  obtain ⟨hlow, hupp⟩ := hmeets
  rw [hs_start, ht_stop, mul_lt_mul_iff_left₀ hpos, Nat.cast_lt] at hlow
  rw [hstart', hs_stop, mul_lt_mul_iff_left₀ hpos, Nat.cast_lt] at hupp
  constructor
  · rw [hs_start, hstart', mul_le_mul_iff_left₀ hpos, Nat.cast_le]
    exact Nat.lt_succ_iff.1 hlow
  · rw [ht_stop, hs_stop, mul_le_mul_iff_left₀ hpos, Nat.cast_le]
    exact hupp

/-- **Of two aligned spans with a stretch in common, one includes the other.** -/
theorem Aligned.nested (hs : s.Aligned) (ht : t.Aligned) (hmeets : s.Meets t) :
    s.Includes t ∨ t.Includes s := by
  rcases le_total t.extent s.extent with hle | hle
  · exact Or.inl (hs.includes_of_le ht hle hmeets)
  · exact Or.inr (ht.includes_of_le hs hle hmeets.symm)

end Span

/-- Both spans of each half of an aligned rectangle are aligned. -/
theorem Rect.Halved.aligned {r kept created : Rect ℚ} {cut : Orientation} {side : Side}
    (h : r.Halved cut side kept created) (hr : ∀ o, (r.along o).Aligned) (o : Orientation) :
    (kept.along o).Aligned := by
  rcases Orientation.eq_or_eq_flip cut o with rfl | rfl
  · rw [h.kept_along]
    exact hr _
  · refine (hr _).half h.kept_extent ?_
    have hedge := h.kept_edge
    cases side with
    | before => exact Or.inr hedge
    | after => exact Or.inl hedge

/-! ### Flush sides survive splits -/

namespace Layout

variable {s t : Layout ℚ} {p q : Panel ℚ} {cut : Orientation} {kept created : Rect ℚ}
  {b : Orientation} {side : Side} {limits : Limits} {id : PanelId}

/-- If a part of a panel borders another panel, so does the panel. -/
theorem Perfect.borders_of_includes (h : s.Perfect) (hp : p ∈ s.panels) (hq : q ∈ s.panels)
    (hne : q ≠ p) {r : Rect ℚ} (hr : ∀ o, (r.along o).Positive)
    (hin : ∀ o, (p.rect.along o).Includes (r.along o)) (hb : q.rect.Borders r b side) :
    q.rect.Borders p.rect b side := by
  have hmeets := hb.2.mono (hin b)
  refine ⟨?_, hmeets⟩
  have hfollows := h.follows_of_meets hq hp hne hmeets
  have hrlt := Span.start_lt_stop (hr b.flip)
  have hqlt := Span.start_lt_stop (h.positive q hq b.flip)
  obtain ⟨hlow, hupp⟩ := hin b.flip
  -- the panel reaches no further than its part, or it would reach into the other panel
  cases side with
  | before =>
    have hstop : (r.along b.flip).stop = (q.rect.along b.flip).start := hb.1
    show (p.rect.along b.flip).stop = (q.rect.along b.flip).start
    rcases hfollows with hle | hle <;> linarith
  | after =>
    have hstart : (r.along b.flip).start = (q.rect.along b.flip).stop := hb.1
    show (p.rect.along b.flip).start = (q.rect.along b.flip).stop
    rcases hfollows with hle | hle <;> linarith

/-- The side of a half that faces the other half is flush. -/
theorem Perfect.flush_of_halved (h : s.Perfect) (hq : q ∈ s.panels) {r : Rect ℚ}
    (hr : ∀ o, (r.along o).Positive) (hhalved : r.Halved cut side kept q.rect) :
    s.Flush kept cut side := by
  have hborders := hhalved.borders hr
  have halong : q.rect.along cut = kept.along cut :=
    hhalved.created_along.trans hhalved.kept_along.symm
  refine ⟨h.inner_of_borders hq hborders, fun k hk hkborders => ?_⟩
  have hmeets : (k.rect.along cut).Meets (q.rect.along cut) := by
    rw [halong]
    exact hkborders.2.symm
  rw [h.eq_of_borders hk hq hkborders hborders hmeets, halong]
  exact Span.Includes.refl _

namespace Split

/-- A flush side of another panel stays flush. -/
theorem flush_of_ne (hsplit : s.Split t p cut kept created id) (hs : s.Perfect)
    (hq : q ∈ s.panels) (hne : q ≠ p) (hflush : s.Flush q.rect b side) :
    t.Flush q.rect b side := by
  obtain ⟨side', hhalved⟩ := hsplit.exists_halved
  have hpos := hs.positive p hsplit.mem
  have hpart : ∀ r : Rect ℚ, (∀ o, (r.along o).Positive) →
      (∀ o, (p.rect.along o).Includes (r.along o)) → q.rect.Borders r b side →
      (q.rect.along b).Includes (r.along b) := by
    intro r hr hin hb
    have hborders := hs.borders_of_includes hsplit.mem hq hne hr hin hb
    exact (hflush.2 p hsplit.mem hborders).trans (hin b)
  refine ⟨hflush.1, fun k hk hkborders => ?_⟩
  rcases hsplit.mem_iff.1 hk with rfl | rfl | ⟨hk, -⟩
  · exact hpart kept (hhalved.kept_positive hpos) (hhalved.kept_includes hpos) hkborders
  · exact hpart created (hhalved.created_positive hpos) (hhalved.created_includes hpos) hkborders
  · exact hflush.2 k hk hkborders

end Split

/-! ### The layouts that splits alone lead to -/

/-- The layouts that splits alone lead to, whatever the limits and the labels. -/
inductive SplitOnly {α : Type} [Coordinate α] : Layout α → Prop
  | initial (c : Config) (id : PanelId) : SplitOnly (c.initial id)
  | split {s t : Layout α} {limits : Limits} {id : PanelId} (h : SplitOnly s)
      (ht : s.Successor limits id t) : SplitOnly t

/-- No panel is shorter than the mesh is wide, in either direction. -/
def AtLeastMesh (s : Layout ℚ) : Prop :=
  ∀ p ∈ s.panels, ∀ o, mesh ≤ (p.rect.along o).extent

instance (s : Layout ℚ) : Decidable s.AtLeastMesh :=
  inferInstanceAs (Decidable (∀ p ∈ s.panels, _))

namespace SplitOnly

theorem perfect (h : s.SplitOnly) : s.Perfect := by
  induction h with
  | initial c id => exact perfect_single _ _
  | split _ ht ih =>
    obtain ⟨p, cut, kept, created, hsplit⟩ := ht.exists_split
    exact hsplit.perfect ih

/-- **All spans are aligned.** -/
theorem aligned (h : s.SplitOnly) : ∀ p ∈ s.panels, ∀ o, (p.rect.along o).Aligned := by
  induction h with
  | initial c id =>
    intro p hp o
    rw [mem_panels_single.1 hp, Rect.along_unit]
    exact ⟨0, 0, by simp, by simp⟩
  | split _ ht ih =>
    obtain ⟨p, cut, kept, created, hsplit⟩ := ht.exists_split
    obtain ⟨side, hhalved⟩ := hsplit.exists_halved
    intro q hq
    rcases hsplit.mem_iff.1 hq with rfl | rfl | ⟨hq, -⟩
    · exact hhalved.aligned (ih p hsplit.mem)
    · exact hhalved.symm.aligned (ih p hsplit.mem)
    · exact ih q hq

/-- A panel that is alone fills the workspace. -/
theorem eq_single (h : s.SplitOnly) (hp : p ∈ s.panels) (hsize : s.size = 1) :
    s = single p.id s.orientation := by
  cases h with
  | initial c id =>
    rw [mem_panels_single.1 hp]
    rfl
  | split _ ht =>
    obtain ⟨p, cut, kept, created, hsplit⟩ := ht.exists_split
    have := hsplit.size_eq
    have := size_erase hsplit.mem
    omega

theorem onMesh (h : s.SplitOnly) (hmin : s.AtLeastMesh) : s.OnMesh := by
  intro p hp
  have halong : ∀ o, (p.rect.along o).OnMesh := fun o =>
    (h.aligned p hp o).onMesh (hmin p hp o)
  exact ⟨(halong .horizontal).1, (halong .vertical).1, (halong .horizontal).2, (halong .vertical).2⟩

/-- Every panel fills the workspace or has a flush side. -/
theorem unit_or_flush (h : s.SplitOnly) :
    ∀ p ∈ s.panels, p.rect = .unit ∨ ∃ b side, s.Flush p.rect b side := by
  induction h with
  | initial c id =>
    intro p hp
    rw [mem_panels_single.1 hp]
    exact Or.inl rfl
  | @split s t limits id hs ht ih =>
    obtain ⟨p, cut, kept, created, hsplit⟩ := ht.exists_split
    obtain ⟨side, hhalved⟩ := hsplit.exists_halved
    have hpos := hs.perfect.positive p hsplit.mem
    have hperfect := hsplit.perfect hs.perfect
    have hcreated : (⟨id, created⟩ : Panel ℚ) ∈ t.panels := hsplit.mem_iff.2 (Or.inr (Or.inl rfl))
    -- the halves have the sides that face each other, the other panels the ones they had
    intro q hq
    rcases hsplit.mem_iff.1 hq with rfl | rfl | ⟨hq, hne⟩
    · exact Or.inr ⟨cut, side, hperfect.flush_of_halved hcreated hpos hhalved⟩
    · exact Or.inr ⟨cut, side.flip, hperfect.flush_of_halved hsplit.mem_kept hpos hhalved.symm⟩
    · rcases ih q hq with hunit | ⟨b, side', hflush⟩
      · exact Or.inl hunit
      · exact Or.inr ⟨b, side', hsplit.flush_of_ne hs.perfect hq hne hflush⟩

/-- **Every panel that is not alone has a flush side.** -/
theorem exists_flush (h : s.SplitOnly) (hp : p ∈ s.panels) (hsize : 2 ≤ s.size) :
    ∃ b side, s.Flush p.rect b side := by
  refine (h.unit_or_flush p hp).resolve_left fun hunit => ?_
  obtain ⟨b, side, hinner⟩ := h.perfect.exists_inner hp hsize
  rw [hunit] at hinner
  refine hinner ?_
  cases side <;> simp [Rect.edge, Span.bound, Side.border, Span.stop_eq]

/-- **Every panel of a layout made by splits alone can be removed.**  Unless it is alone, one of its
sides is covered exactly by neighbours that lie within it. -/
theorem removable (h : s.SplitOnly) (hmin : s.AtLeastMesh) (hp : p ∈ s.panels) :
    (∃ t, s.remove p.id = .ok t) ∧
      (2 ≤ s.size → ∃ b side, s.CoveredExactly p.rect b side) := by
  have hperfect := h.perfect
  constructor
  · refine (hperfect.remove_ok_or_refused (h.onMesh hmin) hp).resolve_right ?_
    rintro ⟨-, hsize, hno⟩
    obtain ⟨b, side, hflush⟩ := h.exists_flush hp hsize
    exact hno b side hflush
  · intro hsize
    obtain ⟨b, side, hflush⟩ := h.exists_flush hp hsize
    exact ⟨b, side, hperfect.coveredExactly_of_flush hp hflush⟩

end SplitOnly

end Layout

end Mosaic
