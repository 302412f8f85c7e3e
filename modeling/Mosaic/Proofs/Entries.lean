import Mosaic.Layout
import Mathlib.Data.List.Induction
import Mathlib.Data.List.Nodup
import Mathlib.Data.List.Perm.Basic

/-!
# Layouts from lists of panels

Panels are put into a layout one after the other, up to the first label that is there already.  So
a list makes up a layout exactly if no label occurs twice.  The layout has the panels of the list,
and since it keeps them in label order, the order of the list is lost.

* `Layout.exists_ofPanels_iff`: when a list makes up a layout.
* `Layout.ofPanels_of_perm`: the order does not matter.
* `Layout.ofPanels_eq_error_iff`: the label that is refused is the first one that occurs again.
-/

namespace Mosaic

variable {α : Type}

theorem Panel.perm_place {p : Panel α} {ps : List (Panel α)} (h : p.id ∉ ps.map (·.id)) :
    (p.place ps).Perm (p :: ps) := by
  induction ps with
  | nil => exact List.Perm.refl _
  | cons q ps ih =>
    rw [List.map_cons, List.mem_cons, not_or] at h
    rw [place, if_neg h.1]
    split
    · exact List.Perm.refl _
    · exact ((ih h.2).cons q).trans (List.Perm.swap p q ps)

namespace Layout

variable {s : Layout α} {o : Orientation} {p : Panel α} {ps qs : List (Panel α)} {e : Refusal}

theorem nodup_ids (s : Layout α) : s.ids.Nodup :=
  List.pairwise_map.2 (s.ascending.imp fun h => PanelId.ne_of_lt h)

theorem ofPanels_concat (o : Orientation) (ps : List (Panel α)) (p : Panel α) :
    ofPanels o (ps ++ [p]) =
      (ofPanels o ps >>= fun s =>
        if s.contains p.id then .error (.duplicatePanel p.id) else .ok (s.put p)) := by
  unfold ofPanels
  rw [List.foldlM_append]
  simp

theorem ofPanels_concat_of_ok (h : ofPanels o ps = .ok s) :
    ofPanels o (ps ++ [p]) =
      if s.contains p.id then .error (.duplicatePanel p.id) else .ok (s.put p) := by
  rw [ofPanels_concat, h]
  rfl

theorem ofPanels_append_of_error (h : ofPanels o ps = .error e) (qs : List (Panel α)) :
    ofPanels o (ps ++ qs) = .error e := by
  unfold ofPanels at h ⊢
  rw [List.foldlM_append, h]
  rfl

/-- A layout has the panels that it was made of. -/
theorem perm_of_ofPanels (h : ofPanels o ps = .ok s) : s.orientation = o ∧ s.panels.Perm ps := by
  induction ps using List.reverseRecOn generalizing s with
  | nil =>
    cases h
    exact ⟨rfl, List.Perm.refl _⟩
  | append_singleton ps p ih =>
    cases hps : ofPanels o ps with
    | error e =>
      rw [ofPanels_append_of_error hps] at h
      cases h
    | ok t =>
      obtain ⟨horientation, hperm⟩ := ih hps
      rw [ofPanels_concat_of_ok hps] at h
      split at h
      · cases h
      · next hnew =>
        cases h
        refine ⟨horientation, (Panel.perm_place ?_).trans ?_⟩
        · exact fun hmem => hnew (contains_iff.2 hmem)
        · exact (hperm.cons p).trans (List.perm_append_singleton p ps).symm

/-- **A list is refused for the first label that occurs again.** -/
theorem exists_of_ofPanels_eq_error (h : ofPanels o ps = .error e) :
    ∃ before p after, ps = before ++ p :: after ∧ (before.map (·.id)).Nodup ∧
      p.id ∈ before.map (·.id) ∧ e = .duplicatePanel p.id := by
  induction ps using List.reverseRecOn with
  | nil => cases h
  | append_singleton ps p ih =>
    cases hps : ofPanels o ps with
    | error e' =>
      rw [ofPanels_append_of_error hps] at h
      cases h
      obtain ⟨before, q, after, rfl, hlabels⟩ := ih hps
      exact ⟨before, q, after ++ [p], by simp, hlabels⟩
    | ok t =>
      have hids : t.ids.Perm (ps.map (·.id)) := (perm_of_ofPanels hps).2.map _
      rw [ofPanels_concat_of_ok hps] at h
      split at h
      · next hold =>
        cases h
        exact ⟨ps, p, [], rfl, hids.nodup_iff.1 t.nodup_ids, hids.mem_iff.1 (contains_iff.1 hold),
          rfl⟩
      · cases h

/-- **A list makes up a layout if and only if no label occurs twice.** -/
theorem exists_ofPanels_iff : (∃ s, ofPanels o ps = .ok s) ↔ (ps.map (·.id)).Nodup := by
  constructor
  · rintro ⟨s, h⟩
    exact ((perm_of_ofPanels h).2.map _).nodup_iff.1 s.nodup_ids
  · intro hnodup
    cases h : ofPanels o ps with
    | ok s => exact ⟨s, rfl⟩
    | error e =>
      obtain ⟨before, p, after, rfl, -, hp, -⟩ := exists_of_ofPanels_eq_error h
      rw [List.map_append, List.nodup_append] at hnodup
      exact absurd rfl (hnodup.2.2 _ hp _ (List.mem_map_of_mem List.mem_cons_self))

theorem ofPanels_eq_error_iff :
    ofPanels o ps = .error e ↔
      ∃ before p after, ps = before ++ p :: after ∧ (before.map (·.id)).Nodup ∧
        p.id ∈ before.map (·.id) ∧ e = .duplicatePanel p.id := by
  refine ⟨exists_of_ofPanels_eq_error, ?_⟩
  rintro ⟨before, p, after, rfl, hnodup, hp, rfl⟩
  obtain ⟨s, hs⟩ := exists_ofPanels_iff.2 hnodup
  have hold : s.contains p.id :=
    contains_iff.2 (((perm_of_ofPanels hs).2.map _).mem_iff.2 hp)
  rw [List.append_cons]
  refine ofPanels_append_of_error ?_ after
  rw [ofPanels_concat_of_ok hs, if_pos hold]

/-- **The order of the list does not matter.** -/
theorem ofPanels_of_perm (h : ofPanels o ps = .ok s) (hperm : qs.Perm ps) :
    ofPanels o qs = .ok s := by
  have hnodup := (hperm.map (·.id)).nodup_iff.2 (exists_ofPanels_iff.1 ⟨s, h⟩)
  obtain ⟨t, ht⟩ := exists_ofPanels_iff (o := o).2 hnodup
  obtain ⟨hso, hs⟩ := perm_of_ofPanels h
  obtain ⟨hto, hts⟩ := perm_of_ofPanels ht
  have hpanels : t.panels = s.panels := t.ascending.eq_of_mem_iff s.ascending fun p =>
    ((hts.trans hperm).trans hs.symm).mem_iff
  rw [ht, ext_panels (hto.trans hso.symm) hpanels]

/-- A layout is made up of its own panels. -/
theorem ofPanels_panels (s : Layout α) : ofPanels s.orientation s.panels = .ok s := by
  obtain ⟨t, ht⟩ := exists_ofPanels_iff (o := s.orientation).2 s.nodup_ids
  obtain ⟨horientation, hperm⟩ := perm_of_ofPanels ht
  rw [ht, ext_panels horientation
    (t.ascending.eq_of_mem_iff s.ascending fun p => hperm.mem_iff)]

end Layout

end Mosaic
