import Mathlib.Data.List.Perm.Basic
import Mathlib.Data.Set.Function
import Mosaic.Layout.Matching
import Mosaic.Proofs.Relabelling
import Mosaic.Proofs.Validation

/-!
# Pairing off layouts

Two layouts have the same geometry if their panels can be paired off, near ones with near ones.  The
comparison looks for such a pairing greedily and never takes a choice back.  What it finds is a
pairing.  It may miss one, though: nearness is not transitive, so a panel may take the only partner
that a later one has, and whether it does depends on the labels and on which layout comes first.

* `Rect.Pairing`: a pairing of two lists of rectangles, whatever their order.
* `Rect.pairOff_cons`: what one step of the search does.
* `Rect.pairOff_of_pairing`: no choice is wrong if rectangles near a common one are near the same
  ones, since partners can then be exchanged.
* `Layout.matches_of_sameGeometry`: what the comparison of layouts finds, and when it finds it.
* `Layout.sameGeometry_drifted`: three panels with a pairing that it misses.
-/

namespace Mosaic

open Coordinate
open scoped List

/-! ### Lists of pairs -/

section Lists

variable {β γ : Type} {R : β → γ → Prop} {rs : List β} {f g : γ} {as bs : List γ}

/-- The entry that is taken out and those that are left, in another order. -/
theorem perm_takeOut {xs : List β} {i : ℕ} (h : i < xs.length) :
    xs.Perm (xs[i] :: takeOut xs i) := by
  obtain rfl | ⟨init, last, rfl⟩ := xs.eq_nil_or_concat'
  · exact absurd h (Nat.not_lt_zero i)
  unfold takeOut
  rw [List.getLast?_concat]
  change (init ++ [last]).Perm (_ :: ((init ++ [last]).set i last).dropLast)
  rcases Nat.lt_or_ge i init.length with hlt | hge
  · have hleft : (init ++ [last])[i] = init[i] := List.getElem_append_left hlt
    rw [hleft, List.set_append_left _ _ hlt, List.dropLast_concat]
    calc init ++ [last] ~ last :: init := List.perm_append_singleton _ _
      _ ~ last :: init[i] :: init.eraseIdx i :=
        (List.getElem_cons_eraseIdx_perm hlt).symm.cons last
      _ ~ init[i] :: last :: init.eraseIdx i := .swap _ _ _
      _ ~ init[i] :: init.set i last := (List.set_perm_cons_eraseIdx hlt last).symm.cons _
  · obtain rfl : i = init.length := by
      rw [List.length_append, List.length_singleton] at h
      omega
    rw [List.getElem_concat_length rfl, List.set_append_right _ _ le_rfl, Nat.sub_self,
      List.set_cons_zero, List.dropLast_concat]
    exact List.perm_append_singleton _ _

/-- A partner can be exchanged for one that is as good for everybody. -/
theorem forall₂_exchange (h : List.Forall₂ R rs (as ++ g :: bs))
    (hR : ∀ r ∈ rs, R r g → R r f) : List.Forall₂ R rs (as ++ f :: bs) := by
  induction as generalizing rs with
  | nil =>
    obtain ⟨r, rs, hr, hrs, rfl⟩ := List.forall₂_cons_right_iff.1 h
    exact .cons (hR r List.mem_cons_self hr) hrs
  | cons a as ih =>
    obtain ⟨r, rs, hr, hrs, rfl⟩ := List.forall₂_cons_right_iff.1 h
    exact .cons hr (ih hrs fun r' hr' => hR r' (List.mem_cons_of_mem r hr'))

/-- A list without repetitions is mapped to any list related to it by a function. -/
theorem exists_map_eq_of_forall₂ [Nonempty γ] {qs : List γ} (h : List.Forall₂ R rs qs)
    (hrs : rs.Nodup) : ∃ k : β → γ, rs.map k = qs ∧ ∀ r ∈ rs, R r (k r) := by
  classical
  induction h with
  | nil => exact ⟨fun _ => Classical.arbitrary γ, rfl, nofun⟩
  | @cons r q rs qs hrq _ ih =>
    obtain ⟨hnew, hrs⟩ := List.nodup_cons.1 hrs
    obtain ⟨k, rfl, hR⟩ := ih hrs
    have hold : ∀ r' ∈ rs, Function.update k r q r' = k r' := by
      intro r' hr'
      exact Function.update_of_ne (fun heq : r' = r => hnew (heq ▸ hr')) _ _
    refine ⟨Function.update k r q, ?_, ?_⟩
    · rw [List.map_cons, Function.update_self, List.map_congr_left hold]
    · intro r' hr'
      rcases List.mem_cons.1 hr' with rfl | hr'
      · rwa [Function.update_self]
      · rw [hold r' hr']
        exact hR r' hr'

end Lists

variable {α : Type} [Coordinate α]

/-! ### Pairings of rectangles -/

namespace Rect

variable {r f : Rect α} {rs fs rs' fs' : List (Rect α)}

theorem near_comm : r.Near f ↔ f.Near r := by
  unfold Near
  simp only [Coordinate.near_comm]

/-- The rectangles of the first list can be paired off with those of the second one, near ones with
near ones. -/
def Pairing (rs fs : List (Rect α)) : Prop :=
  ∃ gs, List.Forall₂ Near rs gs ∧ gs.Perm fs

theorem Pairing.length_eq (h : Pairing rs fs) : rs.length = fs.length := by
  obtain ⟨gs, hnear, hperm⟩ := h
  exact hnear.length_eq.trans hperm.length_eq

/-- A pairing does not depend on the order of either list. -/
theorem Pairing.perm (h : Pairing rs fs) (hrs : rs'.Perm rs) (hfs : fs.Perm fs') :
    Pairing rs' fs' := by
  obtain ⟨gs, hnear, hperm⟩ := h
  obtain ⟨gs', hnear', hperm'⟩ := List.perm_comp_forall₂ hrs hnear
  exact ⟨gs', hnear', (hperm'.trans hperm).trans hfs⟩

theorem Pairing.symm (h : Pairing rs fs) : Pairing fs rs := by
  obtain ⟨gs, hnear, hperm⟩ := h
  exact List.perm_comp_forall₂ hperm.symm (hnear.flip.imp fun _ _ => near_comm.1)

/-- **One step of the search.**  If a free rectangle is near the first one, then one of those is
taken and the search goes on with the others. -/
theorem pairOff_cons (r : Rect α) (rs fs : List (Rect α)) :
    (∀ f ∈ fs, ¬ r.Near f) ∧ pairOff (r :: rs) fs = false ∨
      ∃ f rest, r.Near f ∧ fs.Perm (f :: rest) ∧ pairOff (r :: rs) fs = pairOff rs rest := by
  rw [pairOff]
  cases hfound : fs.findIdx? fun f => f.Near r with
  | none =>
    refine Or.inl ⟨fun f hf hnear => ?_, rfl⟩
    simpa [near_comm.1 hnear] using List.findIdx?_eq_none_iff.1 hfound f hf
  | some i =>
    obtain ⟨hi, hnear, -⟩ := List.findIdx?_eq_some_iff_getElem.1 hfound
    rw [decide_eq_true_eq] at hnear
    exact Or.inr ⟨fs[i], takeOut fs i, near_comm.1 hnear, perm_takeOut hi, rfl⟩

/-- **What the search finds is a pairing.** -/
theorem pairing_of_pairOff (h : pairOff rs fs = true) (hlength : rs.length = fs.length) :
    Pairing rs fs := by
  induction rs generalizing fs with
  | nil => exact ⟨[], .nil, List.length_eq_zero_iff.1 hlength.symm ▸ .refl _⟩
  | cons r rs ih =>
    obtain ⟨-, hno⟩ | ⟨f, rest, hnear, hperm, heq⟩ := pairOff_cons r rs fs
    · exact absurd (h.symm.trans hno) nofun
    · rw [heq] at h
      have hrest : rs.length = rest.length := by
        have hcons := hlength.trans hperm.length_eq
        simpa using hcons
      obtain ⟨gs, hgs, hperm'⟩ := ih h hrest
      exact ⟨f :: gs, .cons hnear hgs, (hperm'.cons f).trans hperm.symm⟩

/-- Rectangles of the first list that are near a common one of the second are near the same ones. -/
def Unambiguous (rs fs : List (Rect α)) : Prop :=
  ∀ r ∈ rs, ∀ r' ∈ rs, ∀ f ∈ fs, ∀ f' ∈ fs, r.Near f → r.Near f' → r'.Near f → r'.Near f'

/-- **No pairing is missed where nearness is unambiguous.**  The rectangle that is taken may have
another partner in the pairing, but then the two partners can be exchanged. -/
theorem pairOff_of_pairing (h : Pairing rs fs) (hclear : Unambiguous rs fs) :
    pairOff rs fs = true := by
  induction rs generalizing fs with
  | nil => rw [pairOff]
  | cons r rs ih =>
    obtain ⟨gs, hnear, hperm⟩ := h
    obtain ⟨f, gs, hrf, hgs, rfl⟩ := List.forall₂_cons_left_iff.1 hnear
    have hmem : ∀ f' ∈ f :: gs, f' ∈ fs := fun f' => hperm.mem_iff.1
    obtain ⟨hnone, -⟩ | ⟨g, rest, hrg, hperm', heq⟩ := pairOff_cons r rs fs
    · exact absurd hrf (hnone f (hmem f List.mem_cons_self))
    have hrest : ∀ f' ∈ rest, f' ∈ fs := fun f' hf' =>
      hperm'.mem_iff.2 (List.mem_cons_of_mem g hf')
    have hg : g ∈ fs := hperm'.mem_iff.2 List.mem_cons_self
    rw [heq]
    refine ih ?_ fun r' hr' r'' hr'' f' hf' f'' hf'' => hclear r' (List.mem_cons_of_mem r hr') r''
      (List.mem_cons_of_mem r hr'') f' (hrest f' hf') f'' (hrest f'' hf'')
    have htotal : (f :: gs).Perm (g :: rest) := hperm.trans hperm'
    rcases List.mem_cons.1 (htotal.mem_iff.2 List.mem_cons_self) with rfl | hmem'
    · exact ⟨gs, hgs, htotal.cons_inv⟩
    · -- the partner of `g` takes `f` instead
      obtain ⟨as, bs, rfl⟩ := List.append_of_mem hmem'
      refine ⟨as ++ f :: bs, forall₂_exchange hgs fun r' hr' hr'g => ?_, ?_⟩
      · exact hclear r List.mem_cons_self r' (List.mem_cons_of_mem r hr') g hg f
          (hmem f List.mem_cons_self) hrg hrf hr'g
      · refine List.Perm.cons_inv (a := g) (List.Perm.trans ?_ htotal)
        calc g :: (as ++ f :: bs) ~ g :: f :: (as ++ bs) := List.perm_middle.cons g
          _ ~ f :: g :: (as ++ bs) := .swap _ _ _
          _ ~ f :: (as ++ g :: bs) := List.perm_middle.symm.cons f

end Rect

/-! ### Layouts -/

namespace Layout

variable {s t : Layout α} {r : PanelId → PanelId}

/-- There is a one-to-one correspondence between the panels of two layouts in which corresponding
panels are near each other. -/
def Matches (s t : Layout α) : Prop :=
  s.size = t.size ∧ ∃ k : Panel α → Panel α,
    Set.BijOn k {p | p ∈ s.panels} {q | q ∈ t.panels} ∧ ∀ p ∈ s.panels, p.rect.Near (k p).rect

/-- Panels of the first layout that are near a common one of the second are near the same ones. -/
def Unambiguous (s t : Layout α) : Prop :=
  ∀ p ∈ s.panels, ∀ p' ∈ s.panels, ∀ q ∈ t.panels, ∀ q' ∈ t.panels,
    p.rect.Near q.rect → p.rect.Near q'.rect → p'.rect.Near q.rect → p'.rect.Near q'.rect

instance (s t : Layout α) : Decidable (s.Unambiguous t) :=
  inferInstanceAs (Decidable (∀ p ∈ s.panels, ∀ p' ∈ s.panels, ∀ q ∈ t.panels, ∀ q' ∈ t.panels,
    p.rect.Near q.rect → p.rect.Near q'.rect → p'.rect.Near q.rect → p'.rect.Near q'.rect))

theorem Unambiguous.symm (h : s.Unambiguous t) : t.Unambiguous s := by
  intro q hq q' hq' p hp p' hp' hqp hqp' hq'p
  exact Rect.near_comm.1 (h p hp p' hp' q hq q' hq' (Rect.near_comm.1 hqp) (Rect.near_comm.1 hq'p)
    (Rect.near_comm.1 hqp'))

theorem Unambiguous.rects (h : s.Unambiguous t) :
    Rect.Unambiguous (s.panels.map (·.rect)) (t.panels.map (·.rect)) := by
  unfold Rect.Unambiguous
  simp only [List.forall_mem_map]
  exact h

theorem matches_iff_pairing :
    s.Matches t ↔ Rect.Pairing (s.panels.map (·.rect)) (t.panels.map (·.rect)) := by
  constructor
  · rintro ⟨-, k, hk, hnear⟩
    refine ⟨(s.panels.map k).map (·.rect), ?_, List.Perm.map _ ?_⟩
    · rw [List.map_map, List.forall₂_map_left_iff, List.forall₂_map_right_iff, List.forall₂_same]
      exact hnear
    · have hnodup : (s.panels.map k).Nodup := List.Nodup.map_on hk.injOn s.nodup_panels
      refine (List.perm_ext_iff_of_nodup hnodup t.nodup_panels).2 fun q => ?_
      rw [List.mem_map]
      exact (Set.ext_iff.1 hk.image_eq q)
  · rintro h
    have hsize : s.size = t.size := by simpa [size] using h.length_eq
    obtain ⟨gs, hnear, hperm⟩ := h
    -- the rectangles that are paired off are those of the panels, in some order
    obtain ⟨qs, hrects, hqs⟩ := List.perm_comp_forall₂ (r := fun f (q : Panel α) => f = q.rect)
      hperm (List.forall₂_map_left_iff.2 (List.forall₂_same.2 fun _ _ => rfl))
    obtain rfl : gs = qs.map (·.rect) := by
      rw [← List.forall₂_eq_eq_eq, List.forall₂_map_right_iff]
      exact hrects
    rw [List.forall₂_map_left_iff, List.forall₂_map_right_iff] at hnear
    have : Nonempty (Panel α) := ⟨⟨.pending, .unit⟩⟩
    obtain ⟨k, rfl, hk⟩ := exists_map_eq_of_forall₂ hnear s.nodup_panels
    refine ⟨hsize, k, ⟨fun p hp => ?_, fun p hp p' hp' heq => ?_, fun q hq => ?_⟩, hk⟩
    · exact hqs.mem_iff.1 (List.mem_map_of_mem hp)
    · exact List.inj_on_of_nodup_map (hqs.nodup_iff.2 t.nodup_panels) hp hp' heq
    · exact List.mem_map.1 (hqs.mem_iff.2 hq)

theorem sameGeometry_iff : s.sameGeometry t = true ↔ s.size = t.size ∧
    Rect.pairOff (s.panels.map (·.rect)) (t.panels.map (·.rect)) = true := by
  unfold sameGeometry
  rw [Bool.and_eq_true, decide_eq_true_eq]

theorem Matches.symm (h : s.Matches t) : t.Matches s :=
  matches_iff_pairing.2 (matches_iff_pairing.1 h).symm

theorem matches_relabel_iff (hr : Function.Injective r) :
    (s.relabel r).Matches t ↔ s.Matches t := by
  have hrects : ((s.relabel r).panels.map (·.rect)) ~ s.panels.map (·.rect) := by
    refine ((perm_relabel hr s).map _).trans ?_
    rw [List.map_map]
    exact .refl _
  rw [matches_iff_pairing, matches_iff_pairing]
  exact ⟨fun h => h.perm hrects.symm (.refl _), fun h => h.perm hrects (.refl _)⟩

theorem Unambiguous.relabel (h : s.Unambiguous t) (hr : Function.Injective r) :
    (s.relabel r).Unambiguous t := by
  intro p hp p' hp'
  obtain ⟨k, hk, rfl⟩ := (mem_relabel hr).1 hp
  obtain ⟨k', hk', rfl⟩ := (mem_relabel hr).1 hp'
  exact h k hk k' hk'

/-- The comparison finds a pairing ... -/
theorem matches_of_sameGeometry_eq_true (h : s.sameGeometry t = true) : s.Matches t := by
  obtain ⟨hsize, hpaired⟩ := sameGeometry_iff.1 h
  exact matches_iff_pairing.2 (Rect.pairing_of_pairOff hpaired (by simpa [size] using hsize))

/-- ... and it misses none where nearness is unambiguous. -/
theorem Unambiguous.sameGeometry_eq_true_iff (h : s.Unambiguous t) :
    s.sameGeometry t = true ↔ s.Matches t := by
  refine ⟨matches_of_sameGeometry_eq_true, fun hmatches => sameGeometry_iff.2 ⟨hmatches.1, ?_⟩⟩
  exact Rect.pairOff_of_pairing (matches_iff_pairing.1 hmatches) h.rects

/-- **What the comparison of geometries says.**  Layouts that are found to have the same geometry
match.  If the panels that are near a common one are near the same ones, then all layouts that match
are found, in either order and whatever the labels are. -/
theorem matches_of_sameGeometry (s t : Layout α) :
    (s.sameGeometry t = true → s.Matches t) ∧
      (s.Unambiguous t →
        (s.sameGeometry t = true ↔ s.Matches t) ∧ t.sameGeometry s = s.sameGeometry t ∧
          ∀ r : PanelId → PanelId, Function.Injective r →
            (s.relabel r).sameGeometry t = s.sameGeometry t ∧
              s.sameGeometry (t.relabel r) = s.sameGeometry t) := by
  refine ⟨matches_of_sameGeometry_eq_true, fun h => ?_⟩
  have hiff := h.sameGeometry_eq_true_iff
  refine ⟨hiff, ?_, fun r hr => ⟨?_, ?_⟩⟩
  · rw [Bool.eq_iff_iff, h.symm.sameGeometry_eq_true_iff, hiff]
    exact ⟨Matches.symm, Matches.symm⟩
  · rw [Bool.eq_iff_iff, (h.relabel hr).sameGeometry_eq_true_iff, hiff, matches_relabel_iff hr]
  · rw [Bool.eq_iff_iff, (h.symm.relabel hr).symm.sameGeometry_eq_true_iff, hiff]
    exact ⟨fun hm => ((matches_relabel_iff hr).1 hm.symm).symm,
      fun hm => ((matches_relabel_iff hr).2 hm.symm).symm⟩

/-- Two columns in double precision, one of them drifted, whose labels are the other way round. -/
def driftedColumns : Layout Float :=
  (empty .horizontal).putAll [⟨⟨3⟩, ⟨0.5, 0, 0.5, 1⟩⟩, ⟨⟨8⟩, ⟨9e-7, 0, 0.5, 1⟩⟩]

theorem matches_driftedColumns :
    twoColumns.Unambiguous driftedColumns ∧ twoColumns.sameGeometry driftedColumns = true ∧
      twoColumns.Matches driftedColumns ∧ driftedColumns.sameGeometry twoColumns = true := by
  have hclear : twoColumns.Unambiguous driftedColumns := by decide +kernel
  have hsame : twoColumns.sameGeometry driftedColumns = true := by decide +kernel
  obtain ⟨hfound, hall⟩ := matches_of_sameGeometry twoColumns driftedColumns
  exact ⟨hclear, hsame, hfound hsame, (hall hclear).2.1.trans hsame⟩

/-! ### A pairing that is missed -/

/-- Three panels that fill the workspace, but for a drift of the last one. -/
def stacked (drift : Float) : Layout Float :=
  (empty .horizontal).putAll [⟨⟨1⟩, ⟨0, 0, 1, 1⟩⟩, ⟨⟨2⟩, ⟨0, 0, 1, 1⟩⟩, ⟨⟨3⟩, ⟨drift, 0, 1, 1⟩⟩]

/-- The second panel takes the only partner of the third one. -/
theorem sameGeometry_drifted :
    (∀ drift ∈ [1.5e-6, 0.75e-6], ∀ p ∈ (stacked drift).panels,
      ∀ o, ((p.rect.along o).start).isFinite ∧ ((p.rect.along o).extent).isFinite) ∧
    (stacked 1.5e-6).Matches (stacked 0.75e-6) ∧
      (stacked 1.5e-6).sameGeometry (stacked 0.75e-6) = false ∧
      (stacked 0.75e-6).sameGeometry (stacked 1.5e-6) = true ∧
      ((stacked 1.5e-6).relabel fun id => ⟨-id.number⟩).sameGeometry (stacked 0.75e-6) = true := by
  have hback : (stacked 0.75e-6).sameGeometry (stacked 1.5e-6) = true := by decide +kernel
  refine ⟨?_, (matches_of_sameGeometry_eq_true hback).symm, ?_, hback, ?_⟩ <;> decide +kernel

end Layout

end Mosaic
