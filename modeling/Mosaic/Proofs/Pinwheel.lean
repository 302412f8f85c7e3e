import Mosaic.Proofs.Removal

/-!
# Pinwheels

A side of a panel is not flush if it lies on the border of the workspace or if a panel beyond it
sticks out past one of its ends.  A panel that sticks out takes the corner at that end for itself,
so the next side around the panel has to find one that sticks out at its other end.  Going around
the panel in this way closes a pinwheel, and the panels in the middle of a pinwheel are the only
ones whose removal is refused.

* `Rect.SticksOut r q b side tip`: beyond a side, `q` sticks out past one of the two ends.
* `Layout.Juts.turn`: from one side to the next around a panel without a flush side.
* `Layout.PinwheelCentre`: the shape, and `Layout.remove_refused_iff`: a removal is refused there
  and nowhere else.
-/

namespace Mosaic

open Coordinate

/-! ### Past an end -/

namespace Span

/-- The second span reaches past an end of the first. -/
def Passes (s t : Span ℚ) : Side → Prop
  | .before => t.start < s.start
  | .after => s.stop < t.stop

instance (s t : Span ℚ) (tip : Side) : Decidable (s.Passes t tip) := by
  cases tip <;> exact inferInstanceAs (Decidable (_ < _))

variable {s t u : Span ℚ} {tip : Side}

theorem not_includes_iff : ¬ s.Includes t ↔ ∃ tip, s.Passes t tip := by
  unfold Includes
  rw [not_and_or, not_le, not_le]
  constructor
  · rintro (h | h)
    · exact ⟨.before, h⟩
    · exact ⟨.after, h⟩
  · rintro ⟨tip, h⟩
    cases tip
    · exact Or.inl h
    · exact Or.inr h

/-- Spans that pass the same end have a stretch in common around it. -/
theorem Passes.meets (h : s.Passes t tip) (ht : s.Meets t) (h' : s.Passes u tip)
    (hu : s.Meets u) : t.Meets u := by
  cases tip with
  | before => exact ⟨lt_trans h hu.1, lt_trans h' ht.1⟩
  | after => exact ⟨ht.2.trans h', hu.2.trans h⟩

/-- A span that passes an end meets every span that begins there. -/
theorem Passes.meets_of_bound (h : s.Passes t tip) (ht : s.Meets t)
    (hu : u.bound tip.flip = s.bound tip) (hpos : u.Positive) : t.Meets u := by
  have hlt := start_lt_stop hpos
  cases tip with
  | before =>
    have hstop : u.stop = s.start := hu
    refine ⟨?_, ?_⟩
    · rw [hstop]
      exact h
    · rw [hstop] at hlt
      exact hlt.trans ht.1
  | after =>
    have hstart : u.start = s.stop := hu
    refine ⟨?_, ?_⟩
    · rw [hstart] at hlt
      exact ht.2.trans hlt
    · rw [hstart]
      exact h

end Span

namespace Rect

/-- Beyond a side of the first rectangle, the second one sticks out past an end of the side. -/
def SticksOut (r q : Rect ℚ) (b : Orientation) (side tip : Side) : Prop :=
  r.Borders q b side ∧ (r.along b).Passes (q.along b) tip

end Rect

/-! ### Around a panel -/

namespace Layout

/-- Some panel beyond the side of the rectangle sticks out past the end of the side. -/
def Juts (s : Layout ℚ) (r : Rect ℚ) (b : Orientation) (side tip : Side) : Prop :=
  ∃ q ∈ s.panels, r.SticksOut q.rect b side tip

variable {s : Layout ℚ} {p q k : Panel ℚ} {b : Orientation} {side tip : Side}

/-- A side inside the workspace that is not flush has a panel that sticks out. -/
theorem exists_juts (hinner : p.rect.edge b side ≠ side.border)
    (hflush : ¬ s.Flush p.rect b side) : ∃ tip, s.Juts p.rect b side tip := by
  unfold Flush at hflush
  push Not at hflush
  obtain ⟨q, hq, hborders, hnot⟩ := hflush hinner
  obtain ⟨tip, hpasses⟩ := Span.not_includes_iff.1 hnot
  exact ⟨tip, q, hq, hborders, hpasses⟩

namespace Perfect

/-- Where a panel sticks out, both the side and the side around the corner are inside the
workspace. -/
theorem inner_of_juts (h : s.Perfect) (hs : s.Juts p.rect b side tip) :
    p.rect.edge b side ≠ side.border ∧ p.rect.edge b.flip tip ≠ tip.border := by
  obtain ⟨q, hq, hborders, hpasses⟩ := hs
  refine ⟨h.inner_of_borders hq hborders, ?_⟩
  have hunit := h.within q hq b
  rw [Rect.edge_flip]
  intro heq
  cases tip with
  | before =>
    have hzero : (p.rect.along b).start = 0 := heq
    have hlt : (q.rect.along b).start < (p.rect.along b).start := hpasses
    linarith [hunit.1]
  | after =>
    have hone : (p.rect.along b).stop = 1 := heq
    have hlt : (p.rect.along b).stop < (q.rect.along b).stop := hpasses
    linarith [hunit.2]

/-- One panel at most sticks out past an end of a side. -/
theorem eq_of_sticksOut (h : s.Perfect) (hq : q ∈ s.panels) (hk : k ∈ s.panels)
    (hpq : p.rect.SticksOut q.rect b side tip) (hpk : p.rect.SticksOut k.rect b side tip) :
    q = k :=
  h.eq_of_borders hq hk hpq.1 hpk.1 (hpq.2.meets hpq.1.2 hpk.2 hpk.1.2)

/-- **One side at most has a panel that sticks out at a corner.**  Two such panels would share the
place beyond the corner. -/
theorem not_juts (h : s.Perfect) (hp : p ∈ s.panels) (hs : s.Juts p.rect b side tip) :
    ¬ s.Juts p.rect b.flip tip side := by
  rintro ⟨k, hk, hkborders, hkpasses⟩
  obtain ⟨q, hq, hqborders, hqpasses⟩ := hs
  have hne : q ≠ k := by
    rintro rfl
    have hside := hqborders.side_unique hkborders (h.positive p hp) (h.positive q hq)
    exact Orientation.flip_ne b hside.1
  -- each of the two passes the end where the other one begins
  have hbound := hkborders.1
  rw [Rect.edge_flip, Rect.edge_flip] at hbound
  have halong := hqpasses.meets_of_bound hqborders.2 hbound (h.positive k hk b)
  have hacross := hkpasses.meets_of_bound hkborders.2 hqborders.1 (h.positive q hq b.flip)
  rcases (Rect.apart_iff b).1 (h.apart q hq k hk hne) with hnot | hnot
  · exact hnot halong
  · exact hnot hacross.symm

/-- **From one side to the next.**  Around a panel without a flush side, if a panel sticks out past
an end of a side, then one sticks out on the side around the corner, past its other end. -/
theorem turn (h : s.Perfect) (hp : p ∈ s.panels) (hno : ∀ b side, ¬ s.Flush p.rect b side)
    (hs : s.Juts p.rect b side tip) : s.Juts p.rect b.flip tip side.flip := by
  obtain ⟨next, hnext⟩ := exists_juts (h.inner_of_juts hs).2 (hno b.flip tip)
  rcases Side.eq_or_eq_flip side next with rfl | rfl
  · exact absurd hnext (h.not_juts hp hs)
  · exact hnext

/-- A panel inside the workspace has at least one neighbour on each side. -/
theorem five_le_size (h : s.Perfect) (hp : p ∈ s.panels)
    (hinner : ∀ b side, p.rect.edge b side ≠ side.border) : 5 ≤ s.size := by
  have hneighbour : ∀ b side, ∃ q ∈ s.panels, p.rect.Borders q.rect b side := fun b side => by
    obtain ⟨x, hlow, hupp⟩ := exists_between (Rect.lower_lt_upper (h.positive p hp) b)
    obtain ⟨q, hq, hborders, -⟩ := h.exists_borders hp (hinner b side) ⟨hlow, hupp⟩
    exact ⟨q, hq, hborders⟩
  choose f hf hborders using hneighbour
  let around := (Orientation.all.product Side.all).map fun i => f i.1 i.2
  have hinjective : Function.Injective fun i : Orientation × Side => f i.1 i.2 := by
    rintro ⟨b, side⟩ ⟨b', side'⟩ heq
    have hborders' := hborders b' side'
    rw [← show f b side = f b' side' from heq] at hborders'
    obtain ⟨rfl, rfl⟩ :=
      (hborders b side).side_unique hborders' (h.positive p hp) (h.positive _ (hf b side))
    rfl
  have hnodup : (p :: around).Nodup := by
    refine List.nodup_cons.2 ⟨fun hmem => ?_, List.Nodup.map hinjective (by decide)⟩
    obtain ⟨i, -, heq⟩ := List.mem_map.1 hmem
    exact h.ne_of_borders hp (hborders i.1 i.2) heq
  have hsub : p :: around ⊆ s.panels := by
    intro q hq
    rcases List.mem_cons.1 hq with rfl | hq
    · exact hp
    · obtain ⟨i, -, rfl⟩ := List.mem_map.1 hq
      exact hf i.1 i.2
  exact (hnodup.subperm hsub).length_le

/-- All the way around a panel without a flush side. -/
theorem around (h : s.Perfect) (hp : p ∈ s.panels) (hno : ∀ b side, ¬ s.Flush p.rect b side)
    (hs : s.Juts p.rect b side tip) :
    s.Juts p.rect b.flip tip side.flip ∧ s.Juts p.rect b side.flip tip.flip ∧
      s.Juts p.rect b.flip tip.flip side := by
  have first := h.turn hp hno hs
  have second := h.turn hp hno first
  have third := h.turn hp hno second
  simp only [Orientation.flip_flip, Side.flip_flip] at second third
  exact ⟨first, second, third⟩

/-- Without a flush side, panels stick out past one end of a side only. -/
theorem tip_unique (h : s.Perfect) (hp : p ∈ s.panels) (hno : ∀ b side, ¬ s.Flush p.rect b side)
    {tip' : Side} (hs : s.Juts p.rect b side tip) (hs' : s.Juts p.rect b side tip') :
    tip' = tip := by
  rcases Side.eq_or_eq_flip tip tip' with rfl | rfl
  · rfl
  · exact absurd (h.around hp hno hs).2.2 (h.not_juts hp hs')

end Perfect

/-! ### The centre of a pinwheel -/

/-- **The centre of a pinwheel.**  The rectangle touches no side of the workspace.  On each of its
sides exactly one panel sticks out, past exactly one end, and at each of its corners exactly one
does.  A corner is given by the ends of the two spans that meet there. -/
structure PinwheelCentre (s : Layout ℚ) (r : Rect ℚ) : Prop where
  inner : ∀ b side, r.edge b side ≠ side.border
  onSide : ∀ b side, ∃! q, q ∈ s.panels ∧ ∃ tip, r.SticksOut q.rect b side tip
  oneEnd : ∀ b side, ∀ q ∈ s.panels, (∃ tip, r.SticksOut q.rect b side tip) →
    ∃! tip, r.SticksOut q.rect b side tip
  atCorner : ∀ corner : Orientation → Side, ∃! q, q ∈ s.panels ∧
    ∃ b, r.SticksOut q.rect b (corner b.flip) (corner b)

/-- The centre of a pinwheel has no flush side. -/
theorem PinwheelCentre.not_flush (h : s.PinwheelCentre p.rect) (b : Orientation) (side : Side) :
    ¬ s.Flush p.rect b side := by
  rintro ⟨-, hflush⟩
  obtain ⟨q, ⟨hq, tip, hborders, hpasses⟩, -⟩ := h.onSide b side
  exact Span.not_includes_iff.2 ⟨tip, hpasses⟩ (hflush q hq hborders)

namespace Perfect

/-- A panel without a flush side is the centre of a pinwheel, unless it is alone. -/
theorem pinwheelCentre_of_not_flush (h : s.Perfect) (hp : p ∈ s.panels) (hsize : 2 ≤ s.size)
    (hno : ∀ b side, ¬ s.Flush p.rect b side) : s.PinwheelCentre p.rect := by
  -- one side has a panel that sticks out, and the turns take it to the other three
  have hall : ∀ b side, ∃ tip, s.Juts p.rect b side tip := by
    obtain ⟨b, side, hinner⟩ := h.exists_inner hp hsize
    obtain ⟨tip, hs⟩ := exists_juts hinner (hno b side)
    obtain ⟨first, second, third⟩ := h.around hp hno hs
    intro b' side'
    rcases Orientation.eq_or_eq_flip b b' with rfl | rfl
    · rcases Side.eq_or_eq_flip side side' with rfl | rfl
      · exact ⟨_, hs⟩
      · exact ⟨_, second⟩
    · rcases Side.eq_or_eq_flip tip side' with rfl | rfl
      · exact ⟨_, first⟩
      · exact ⟨_, third⟩
  refine ⟨fun b side => ?_, fun b side => ?_, fun b side q hq => ?_, fun corner => ?_⟩
  · obtain ⟨tip, hs⟩ := hall b side
    exact (h.inner_of_juts hs).1
  · obtain ⟨tip, q, hq, hsticks⟩ := hall b side
    refine ⟨q, ⟨hq, tip, hsticks⟩, ?_⟩
    rintro k ⟨hk, tip', hsticks'⟩
    obtain rfl := h.tip_unique hp hno ⟨q, hq, hsticks⟩ ⟨k, hk, hsticks'⟩
    exact h.eq_of_sticksOut hk hq hsticks' hsticks
  · rintro ⟨tip, hsticks⟩
    refine ⟨tip, hsticks, fun tip' hsticks' => ?_⟩
    exact h.tip_unique hp hno ⟨q, hq, hsticks⟩ ⟨q, hq, hsticks'⟩
  · have hcorner : ∃ b, s.Juts p.rect b (corner b.flip) (corner b) := by
      obtain ⟨tip, hs⟩ := hall .horizontal (corner .vertical)
      -- if the panel on this side sticks out at its other end, the turn before it ends here
      rcases Side.eq_or_eq_flip (corner .horizontal) tip with rfl | rfl
      · exact ⟨.horizontal, hs⟩
      · have third := (h.around hp hno hs).2.2
        rw [Side.flip_flip] at third
        exact ⟨.vertical, third⟩
    obtain ⟨b, q, hq, hsticks⟩ := hcorner
    refine ⟨q, ⟨hq, b, hsticks⟩, ?_⟩
    rintro k ⟨hk, b', hsticks'⟩
    rcases Orientation.eq_or_eq_flip b b' with rfl | rfl
    · exact h.eq_of_sticksOut hk hq hsticks' hsticks
    · rw [Orientation.flip_flip] at hsticks'
      exact absurd ⟨k, hk, hsticks'⟩ (h.not_juts hp ⟨q, hq, hsticks⟩)

/-- A removal either succeeds or is refused, the panel being the centre of a pinwheel. -/
theorem remove_ok_or_pinwheelCentre (h : s.Perfect) (hm : s.OnMesh) (hp : p ∈ s.panels) :
    (∃ t, s.remove p.id = .ok t) ∨
      s.remove p.id = .error (.noNeighbour p.id) ∧ s.PinwheelCentre p.rect := by
  rcases h.remove_ok_or_refused hm hp with hok | ⟨herror, hsize, hno⟩
  · exact Or.inl hok
  · exact Or.inr ⟨herror, h.pinwheelCentre_of_not_flush hp hsize hno⟩

theorem remove_of_pinwheelCentre (h : s.Perfect) (hm : s.OnMesh) (hp : p ∈ s.panels)
    (hc : s.PinwheelCentre p.rect) : s.remove p.id = .error (.noNeighbour p.id) := by
  have hsize := h.five_le_size hp hc.inner
  rw [remove_of_three_le hp (by omega), (h.heirs?_eq_none_iff_flush hm hp).2 hc.not_flush]

end Perfect

/-- **A removal is refused exactly at the centre of a pinwheel.**  Everywhere else it succeeds; in
particular it does in a layout of fewer than five panels, and for a panel at the border of the
workspace. -/
theorem remove_refused_iff (h : s.Tiles) (hm : s.OnMesh) (hp : p ∈ s.panels) :
    (s.remove p.id = .error (.noNeighbour p.id) ↔ s.PinwheelCentre p.rect) ∧
      (¬ s.PinwheelCentre p.rect → ∃ t, s.remove p.id = .ok t) ∧
      (s.size < 5 → ∃ t, s.remove p.id = .ok t) ∧
      ((∃ b side, p.rect.edge b side = side.border) → ∃ t, s.remove p.id = .ok t) := by
  have hperfect := tiles_iff_perfect.1 h
  have hok : ¬ s.PinwheelCentre p.rect → ∃ t, s.remove p.id = .ok t := by
    intro hnot
    exact (hperfect.remove_ok_or_pinwheelCentre hm hp).resolve_right fun hc => hnot hc.2
  refine ⟨⟨fun herror => ?_, hperfect.remove_of_pinwheelCentre hm hp⟩, hok, ?_, ?_⟩
  · by_contra hnot
    obtain ⟨t, ht⟩ := hok hnot
    rw [ht] at herror
    cases herror
  · intro hsize
    refine hok fun hc => ?_
    have := hperfect.five_le_size hp hc.inner
    omega
  · rintro ⟨b, side, hborder⟩
    exact hok fun hc => hc.inner b side hborder

/-- Four panels around a fifth one. -/
def pinwheel : Layout ℚ :=
  (empty .horizontal).putAll [⟨⟨1⟩, ⟨0, 0, 3 / 4, 1 / 4⟩⟩, ⟨⟨2⟩, ⟨3 / 4, 0, 1 / 4, 3 / 4⟩⟩,
    ⟨⟨3⟩, ⟨1 / 4, 3 / 4, 3 / 4, 1 / 4⟩⟩, ⟨⟨4⟩, ⟨0, 1 / 4, 1 / 4, 3 / 4⟩⟩,
    ⟨⟨5⟩, ⟨1 / 4, 1 / 4, 1 / 2, 1 / 2⟩⟩]

theorem pinwheelCentre_pinwheel :
    (pinwheel.Tiles ∧ pinwheel.OnMesh) ∧
      pinwheel.remove ⟨5⟩ = .error (.noNeighbour ⟨5⟩) ∧
        pinwheel.PinwheelCentre ⟨1 / 4, 1 / 4, 1 / 2, 1 / 2⟩ := by
  have htiles : pinwheel.Tiles := by decide +kernel
  have hmesh : pinwheel.OnMesh := by decide +kernel
  have hmem : ⟨⟨5⟩, ⟨1 / 4, 1 / 4, 1 / 2, 1 / 2⟩⟩ ∈ pinwheel.panels := by decide +kernel
  have herror : pinwheel.remove ⟨5⟩ = .error (.noNeighbour ⟨5⟩) := by cbv
  exact ⟨⟨htiles, hmesh⟩, herror, (remove_refused_iff htiles hmesh hmem).1.1 herror⟩

end Layout

end Mosaic
