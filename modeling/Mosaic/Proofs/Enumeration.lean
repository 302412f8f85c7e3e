import Mosaic.Proofs.Bookkeeping
import Mosaic.Proofs.Sides

/-!
# The list of candidates

A candidate is told by the panel that is cut, the cut, and the half that the panel keeps.  Whatever
the numbers of a layout are, its list of candidates runs through all of these that the layout
offers, in one order and each of them once, and a candidate differs from the layout in the two
halves alone.

* `Halving`: a panel, a cut and a half.  `Halving.Precedes` is the order of the list.
* `Layout.Objection`: why there is no list.
* `Layout.HalvedBy`: what a candidate is, and what it becomes when its pending panel gets a label.
* `Layout.candidates_eq_error_iff`, `Layout.candidates_eq_map_offers`: the list.
* `Layout.successor_iff_offers`: what follows a layout.  By `Layout.Split.half_or_mem` each panel of
  it is a half of the panel that was cut, or an old one.
-/

namespace Mosaic

open Coordinate

variable {α : Type}

/-! ### Halvings -/

/-- A way of halving a panel: the cut, and the half that the panel keeps. -/
structure Halving (α : Type) where
  panel : Panel α
  cut : Orientation
  kept : Side
  deriving DecidableEq

/-- One half of a rectangle: the left or upper one before the cut, the other one after it. -/
def Rect.halfAt [Coordinate α] (r : Rect α) (cut : Orientation) : Side → Rect α
  | .before => (r.split cut).1
  | .after => (r.split cut).2

section HalfAt

variable [Coordinate α] (r : Rect α) (cut : Orientation)

@[simp] theorem Rect.along_halfAt (side : Side) : (r.halfAt cut side).along cut = r.along cut := by
  cases side <;> exact along_ofSpans _ _ _

@[simp] theorem Rect.along_flip_halfAt_before :
    (r.halfAt cut .before).along cut.flip = (r.along cut.flip).halves.1 :=
  along_flip_ofSpans _ _ _

@[simp] theorem Rect.along_flip_halfAt_after :
    (r.halfAt cut .after).along cut.flip = (r.along cut.flip).halves.2 :=
  along_flip_ofSpans _ _ _

end HalfAt

namespace Halving

/-- The panels go by their labels; of one panel the vertical cut goes before the horizontal one, and
of one cut the panel keeps the first half before it keeps the second. -/
def Precedes (v w : Halving α) : Prop :=
  v.panel.id < w.panel.id ∨
    v.panel.id = w.panel.id ∧
      (v.cut = .vertical ∧ w.cut = .horizontal ∨
        v.cut = w.cut ∧ v.kept = .before ∧ w.kept = .after)

theorem Precedes.ne {v w : Halving α} (h : v.Precedes w) : v ≠ w := by
  rintro rfl
  rcases h with hlt | ⟨-, ⟨hcut, hcut'⟩ | ⟨-, hkept, hkept'⟩⟩
  · exact PanelId.lt_irrefl _ hlt
  · exact Orientation.noConfusion (hcut.symm.trans hcut')
  · exact Side.noConfusion (hkept.symm.trans hkept')

variable [Coordinate α]

/-- The half that stays under the label of the panel. -/
def keptHalf (w : Halving α) : Rect α :=
  w.panel.rect.halfAt w.cut w.kept

/-- The half that waits for a label. -/
def createdHalf (w : Halving α) : Rect α :=
  w.panel.rect.halfAt w.cut w.kept.flip

end Halving

namespace Panel

variable [Coordinate α] {p : Panel α} {cut : Orientation} {w : Halving α}

/-- The halvings of a panel along one cut: the second half is kept only if it is not near the
first. -/
def halvings (p : Panel α) (cut : Orientation) : List (Halving α) :=
  ⟨p, cut, .before⟩ ::
    if (p.rect.halfAt cut .before).Near (p.rect.halfAt cut .after) then [] else [⟨p, cut, .after⟩]

theorem mem_halvings : w ∈ p.halvings cut ↔ w.panel = p ∧ w.cut = cut ∧
    (w.kept = .after → ¬ (p.rect.halfAt cut .before).Near (p.rect.halfAt cut .after)) := by
  obtain ⟨q, o, side⟩ := w
  unfold halvings
  cases side <;> split <;> simp_all

theorem pairwise_halvings (p : Panel α) (cut : Orientation) :
    (p.halvings cut).Pairwise Halving.Precedes := by
  unfold halvings
  split
  · exact List.pairwise_singleton _ _
  · exact List.pairwise_pair.2 (Or.inr ⟨rfl, Or.inr ⟨rfl, rfl, rfl⟩⟩)

end Panel

namespace Layout

variable [Coordinate α] {s : Layout α} {limits : Limits} {w : Halving α} {id : PanelId}

/-! ### Objections -/

/-- Why there is no list of candidates: the first of three reasons that applies. -/
inductive Objection (s : Layout α) (limits : Limits) : Refusal → Prop
  | noCapacity (h : ¬ limits.Roomy) : s.Objection limits (.noCapacity limits.columns limits.rows)
  | stillPending (h : limits.Roomy) (hpending : .pending ∈ s.ids) :
    s.Objection limits .stillPending
  | overCapacity (h : limits.Roomy) (hpending : .pending ∉ s.ids)
    (hsize : limits.capacity < s.size) :
    s.Objection limits (.overCapacity s.size limits.capacity)

/-- **There is no list of candidates exactly if there is an objection.** -/
theorem candidates_eq_error_iff {e : Refusal} :
    s.candidates limits = .error e ↔ s.Objection limits e := by
  unfold candidates
  constructor
  · intro h
    split_ifs at h with hroomy hpending hover hfull
    · cases h
      exact .stillPending hroomy (contains_iff.1 hpending)
    · cases h
      exact .overCapacity hroomy (fun hmem => hpending (contains_iff.2 hmem)) hover
    · cases h
      exact .noCapacity hroomy
  · intro h
    cases h with
    | noCapacity h => exact if_pos h
    | stillPending h hpending => rw [if_neg (not_not_intro h), if_pos (contains_iff.2 hpending)]
    | overCapacity h hpending hsize =>
      rw [if_neg (not_not_intro h), if_neg (fun h => hpending (contains_iff.1 h)), if_pos hsize]

/-! ### What a layout offers -/

/-- The layout offers to halve a panel this way: it is not full, the panel admits the cut, and the
second half is kept only if it is not near the first. -/
def Offers (s : Layout α) (limits : Limits) (w : Halving α) : Prop :=
  s.size ≠ limits.capacity ∧ w.panel ∈ s.panels ∧ s.Admits limits w.panel w.cut ∧
    (w.kept = .after →
      ¬ (w.panel.rect.halfAt w.cut .before).Near (w.panel.rect.halfAt w.cut .after))

/-- All that the layout offers, in order. -/
def offers (s : Layout α) (limits : Limits) : List (Halving α) :=
  if s.size = limits.capacity then []
  else s.panels.flatMap fun p =>
    ([.vertical, .horizontal].filter (s.Admits limits p)).flatMap p.halvings

theorem mem_offers : w ∈ s.offers limits ↔ s.Offers limits w := by
  unfold offers Offers
  split
  next hfull => exact iff_of_false List.not_mem_nil fun h => h.1 hfull
  next hfull =>
    simp only [List.mem_flatMap, List.mem_filter, Panel.mem_halvings, decide_eq_true_eq]
    constructor
    · rintro ⟨p, hp, cut, ⟨-, hadmits⟩, rfl, rfl, hkept⟩
      exact ⟨hfull, hp, hadmits, hkept⟩
    · rintro ⟨-, hp, hadmits, hkept⟩
      exact ⟨w.panel, hp, w.cut, ⟨by cases w.cut <;> simp, hadmits⟩, rfl, rfl, hkept⟩

/-- The offers come in ascending order, and none comes twice. -/
theorem pairwise_offers (s : Layout α) (limits : Limits) :
    (s.offers limits).Pairwise Halving.Precedes := by
  unfold offers
  split
  · exact List.Pairwise.nil
  refine List.pairwise_flatMap.2 ⟨fun p _ => ?_, s.ascending.imp fun hlt v hv w hw => ?_⟩
  · have hcuts : [Orientation.vertical, .horizontal].Pairwise
        fun a b => a = .vertical ∧ b = .horizontal := by simp
    refine List.pairwise_flatMap.2 ⟨fun cut _ => p.pairwise_halvings cut, ?_⟩
    refine (hcuts.filter _).imp fun hab v hv w hw => ?_
    obtain ⟨hvp, hvcut, -⟩ := Panel.mem_halvings.1 hv
    obtain ⟨hwp, hwcut, -⟩ := Panel.mem_halvings.1 hw
    exact Or.inr ⟨by rw [hvp, hwp], Or.inl ⟨hvcut.trans hab.1, hwcut.trans hab.2⟩⟩
  · obtain ⟨_, -, hv⟩ := List.mem_flatMap.1 hv
    obtain ⟨_, -, hw⟩ := List.mem_flatMap.1 hw
    rw [← (Panel.mem_halvings.1 hv).1, ← (Panel.mem_halvings.1 hw).1] at hlt
    exact Or.inl hlt

/-- No band and no line has more panels than the layout. -/
theorem occupancy_le_size (s : Layout α) (line : Orientation) (p : Panel α) :
    s.occupancy line p ≤ s.size := by
  refine max_le List.countP_le_length ?_
  unfold crossings
  refine List.foldlRecOn (motive := (· ≤ s.size)) _ _ (Nat.zero_le _) fun n hn m hm => ?_
  obtain ⟨position, -, rfl⟩ := List.mem_map.1 hm
  exact max_le hn List.countP_le_length

/-- The layout with one panel halved. -/
def halve (s : Layout α) (w : Halving α) : Layout α :=
  s.withHalves w.panel.id w.keptHalf w.createdHalf

theorem map_halve_halvings (s : Layout α) (p : Panel α) (cut : Orientation) :
    (p.halvings cut).map s.halve = s.halvings p cut := by
  unfold Panel.halvings halvings
  rw [List.map_cons, apply_ite (List.map s.halve)]
  rfl

/-- **The candidates are what the layout offers.** -/
theorem candidates_eq_map_offers {cs : List (Layout α)} (hcs : s.candidates limits = .ok cs) :
    cs = (s.offers limits).map s.halve := by
  obtain ⟨-, -, -, rfl⟩ := candidates_eq_ok_iff.1 hcs
  unfold offers
  rw [apply_ite (List.map s.halve), List.map_nil]
  simp only [List.map_flatMap, map_halve_halvings]
  rfl

/-- **What follows a layout.**  One of its panels is halved in a way that the layout offers, and the
half that was created gets its label. -/
theorem successor_iff_offers {t : Layout α} : s.Successor limits id t ↔
    (limits.Roomy ∧ .pending ∉ s.ids ∧ s.size ≤ limits.capacity) ∧
      ∃ w, s.Offers limits w ∧ (s.halve w).commit id = .ok t := by
  constructor
  · rintro ⟨cs, hcs, c, hc, ht⟩
    obtain ⟨hroomy, hpending, hsize, -⟩ := candidates_eq_ok_iff.1 hcs
    rw [candidates_eq_map_offers hcs] at hc
    obtain ⟨w, hw, rfl⟩ := List.mem_map.1 hc
    exact ⟨⟨hroomy, hpending, hsize⟩, w, mem_offers.1 hw, ht⟩
  · rintro ⟨⟨hroomy, hpending, hsize⟩, w, hw, ht⟩
    obtain ⟨cs, hcs⟩ := exists_candidates hroomy hpending hsize
    refine ⟨cs, hcs, s.halve w, ?_, ht⟩
    rw [candidates_eq_map_offers hcs]
    exact List.mem_map_of_mem (mem_offers.2 hw)

/-- After a split a panel is one half of the panel that was cut, or it was there before. -/
theorem Split.half_or_mem {t : Layout α} {p q : Panel α} {cut : Orientation}
    {kept created : Rect α} (h : s.Split t p cut kept created id) (hq : q ∈ t.panels) :
    (q.id = p.id ∨ q.id = id) ∧ (∃ side, q.rect = p.rect.halfAt cut side) ∨
      q ∈ s.panels ∧ q.id ≠ p.id ∧ q.id ≠ id := by
  have hhalves : (∃ side, kept = p.rect.halfAt cut side) ∧
      ∃ side, created = p.rect.halfAt cut side := by
    rcases h.halves with heq | heq
    · exact ⟨⟨.before, congrArg Prod.fst heq.symm⟩, .after, congrArg Prod.snd heq.symm⟩
    · exact ⟨⟨.after, congrArg Prod.snd heq.symm⟩, .before, congrArg Prod.fst heq.symm⟩
  rcases h.mem_iff.1 hq with rfl | rfl | ⟨hq, hne⟩
  · exact Or.inl ⟨Or.inl rfl, hhalves.1⟩
  · exact Or.inl ⟨Or.inr rfl, hhalves.2⟩
  · exact Or.inr ⟨hq, fun heq => hne (eq_of_id_eq hq h.mem heq), h.id_ne hq⟩

/-! ### What a candidate is -/

/-- Any label of a layout in which one panel is halved: the half that was created waits under the
reserved label, and all other panels are as they were. -/
theorem find?_halve (s : Layout α) (w : Halving α) (id : PanelId) :
    (s.halve w).find? id =
      if id = .pending then some w.createdHalf
      else if id = w.panel.id then some w.keptHalf
      else s.find? id := by
  change ((s.put ⟨w.panel.id, w.keptHalf⟩).put ⟨.pending, w.createdHalf⟩).find? id = _
  rw [find?_put, find?_put]
  simp only [eq_comm]

/-- The layout is the one before with one panel halved, and it stays so when the half that was
created gets its label. -/
structure HalvedBy (s : Layout α) (w : Halving α) (c : Layout α) : Prop where
  orientation : c.orientation = s.orientation
  ids : c.ids = .pending :: s.ids
  kept : c.find? w.panel.id = some w.keptHalf
  created : c.pending? = some w.createdHalf
  others : ∀ id, id ≠ .pending → id ≠ w.panel.id → c.find? id = s.find? id
  commit : ∀ id, id ≠ .pending → id ∉ s.ids →
    c.commit id = .ok ((s.put ⟨w.panel.id, w.keptHalf⟩).put ⟨id, w.createdHalf⟩)

theorem mem_ids_halve (hw : w.panel ∈ s.panels) :
    id ∈ (s.halve w).ids ↔ id = .pending ∨ id ∈ s.ids := by
  rw [← contains_iff, contains, find?_halve]
  split_ifs with hid hpanel
  · simp [hid]
  · simp [hpanel, mem_ids_of_mem hw]
  · rw [← contains, contains_iff, or_iff_right hid]

section Halve

variable (hpending : .pending ∉ s.ids) (hw : w.panel ∈ s.panels)
include hpending hw

theorem ids_halve : (s.halve w).ids = .pending :: s.ids := by
  have hascending : ∀ t : Layout α, t.ids.Pairwise (· < ·) :=
    fun t => List.pairwise_map.2 t.ascending
  have hleast : ∀ id ∈ s.ids, .pending < id := by
    intro id hid
    refine UInt64.pos_iff_ne_zero.2 fun hzero => hpending ?_
    rwa [show PanelId.pending = id from congrArg PanelId.mk hzero.symm]
  have hsorted := List.pairwise_cons.2 ⟨hleast, hascending s⟩
  refine List.Perm.eq_of_pairwise (fun a b _ _ hab hba => ?_) (hascending _) hsorted ?_
  · exact absurd (PanelId.lt_trans hab hba) (PanelId.lt_irrefl a)
  · refine (List.perm_ext_iff_of_nodup ((hascending _).imp PanelId.ne_of_lt)
      (hsorted.imp PanelId.ne_of_lt)).2 fun id => ?_
    rw [mem_ids_halve hw, List.mem_cons]

/-- **Halving a panel changes nothing but the panel.** -/
theorem halvedBy_halve : s.HalvedBy w (s.halve w) := by
  have hne : w.panel.id ≠ .pending := fun h => hpending (h ▸ mem_ids_of_mem hw)
  refine ⟨orientation_putAll _ _, ids_halve hpending hw, ?_, ?_, ?_, ?_⟩
  · rw [find?_halve, if_neg hne, if_pos rfl]
  · rw [pending?, find?_halve, if_pos rfl]
  · intro id hid hother
    rw [find?_halve, if_neg hid, if_neg hother]
  · intro id hid hfresh
    have hunused : ¬ (s.halve w).contains id := by
      rw [contains_iff, mem_ids_halve hw, not_or]
      exact ⟨hid, hfresh⟩
    unfold commit
    rw [if_neg hid, if_neg hunused, pending?, find?_halve, if_pos rfl]
    refine congrArg Except.ok (ext_find? (orientation_putAll _ _) fun other => ?_)
    rw [find?_put, find?_put, find?_put, find?_erase, find?_halve]
    by_cases hother : other = .pending
    · have hnone : s.find? .pending = none := find?_eq_none_iff.2 hpending
      simp [hother, hnone, hne]
    · simp only [hother, if_false, eq_comm]

end Halve

end Layout

end Mosaic
