import Mosaic.Refusal

/-!
# Layouts

A layout is an orientation together with panels in ascending order of their labels, no label
occurring twice.  The order is part of the type, so whatever is derived from a layout depends on
its panels alone and not on the way it was built.

* `Layout.find?`: the rectangle under a label.  By `Layout.ext_find?` two layouts that agree on it
  and on the orientation are equal.
* `Layout.put`, `Layout.erase`: set or drop the rectangle under a label.
* `Layout.ofPanels`: panels in any order, refused at the first label that was seen before.
* `Layout.commit`: gives the pending panel a label of its own.
-/

namespace Mosaic

variable {α : Type}

/-! ### Lists of panels in label order -/

/-- Sets the panel among others in ascending order, replacing the one of the same label. -/
def Panel.place (p : Panel α) : List (Panel α) → List (Panel α)
  | [] => [p]
  | q :: rest =>
    if p.id < q.id then p :: q :: rest
    else if p.id = q.id then p :: rest
    else q :: p.place rest

theorem Panel.mem_place {p q : Panel α} {ps : List (Panel α)} (h : q ∈ p.place ps) :
    q = p ∨ q ∈ ps := by
  induction ps with
  | nil => simpa [place] using h
  | cons r rest ih =>
    rw [place] at h
    split at h
    · simpa using h
    · split at h
      · simp_all only [List.mem_cons]
        exact h.imp_right Or.inr
      · rcases List.mem_cons.1 h with rfl | h
        · simp
        · exact (ih h).imp_right (List.mem_cons_of_mem r)

/-- The panels are in ascending order of their labels. -/
abbrev Panel.Ascending (ps : List (Panel α)) : Prop :=
  ps.Pairwise (·.id < ·.id)

theorem Panel.Ascending.place {p : Panel α} {ps : List (Panel α)} (h : Ascending ps) :
    Ascending (p.place ps) := by
  induction ps with
  | nil => exact List.pairwise_singleton _ _
  | cons q rest ih =>
    have hq := List.pairwise_cons.1 h
    rw [Panel.place]
    split
    next hlt =>
      refine List.pairwise_cons.2 ⟨fun r hr => ?_, h⟩
      rcases List.mem_cons.1 hr with rfl | hr
      · exact hlt
      · exact PanelId.lt_trans hlt (hq.1 r hr)
    next hlt =>
      split
      next heq =>
        exact List.pairwise_cons.2 ⟨fun r hr => heq ▸ hq.1 r hr, hq.2⟩
      next hne =>
        refine List.pairwise_cons.2 ⟨fun r hr => ?_, ih hq.2⟩
        rcases Panel.mem_place hr with rfl | hr
        · exact PanelId.lt_of_not_lt_of_ne hlt hne
        · exact hq.1 r hr

theorem Panel.Ascending.find?_of_mem {ps : List (Panel α)} (h : Ascending ps) {p : Panel α}
    (hp : p ∈ ps) : ps.find? (·.id = p.id) = some p := by
  induction ps with
  | nil => cases hp
  | cons q rest ih =>
    have hq := List.pairwise_cons.1 h
    rcases List.mem_cons.1 hp with rfl | hp
    · simp
    · have hne := PanelId.ne_of_lt (hq.1 p hp)
      simpa [hne] using ih hq.2 hp

theorem Panel.Ascending.eq_of_mem_iff {ps qs : List (Panel α)} (hps : Ascending ps)
    (hqs : Ascending qs) (h : ∀ p, p ∈ ps ↔ p ∈ qs) : ps = qs := by
  induction ps generalizing qs with
  | nil => exact (List.eq_nil_iff_forall_not_mem.2 fun q hq => by simpa using (h q).2 hq).symm
  | cons p ps ih =>
    have hp := List.pairwise_cons.1 hps
    cases qs with
    | nil => simpa using (h p).1 (by simp)
    | cons q qs =>
      have hq := List.pairwise_cons.1 hqs
      have hpq : p = q := by
        rcases List.mem_cons.1 ((h p).1 (by simp)) with rfl | hmem
        · rfl
        rcases List.mem_cons.1 ((h q).2 (by simp)) with rfl | hmem'
        · rfl
        exact absurd (PanelId.lt_trans (hq.1 p hmem) (hp.1 q hmem')) (PanelId.lt_irrefl _)
      subst hpq
      refine congrArg (p :: ·) (ih hp.2 hq.2 fun r => ?_)
      have hr := h r
      constructor
      · intro hmem
        rcases List.mem_cons.1 (hr.1 (List.mem_cons_of_mem _ hmem)) with rfl | h'
        · exact absurd (hp.1 r hmem) (PanelId.lt_irrefl _)
        · exact h'
      · intro hmem
        rcases List.mem_cons.1 (hr.2 (List.mem_cons_of_mem _ hmem)) with rfl | h'
        · exact absurd (hq.1 r hmem) (PanelId.lt_irrefl _)
        · exact h'

/-! ### The type of layouts -/

/-- Panels in ascending order of their labels, and an orientation. -/
structure Layout (α : Type) where
  orientation : Orientation
  panels : List (Panel α)
  ascending : Panel.Ascending panels
  deriving DecidableEq

namespace Layout

theorem ext_panels {s t : Layout α} (ho : s.orientation = t.orientation)
    (hp : s.panels = t.panels) : s = t := by
  cases s
  cases t
  simp_all

/-! ### Looking -/

/-- The number of panels. -/
def size (s : Layout α) : Nat :=
  s.panels.length

/-- The labels in ascending order. -/
def ids (s : Layout α) : List PanelId :=
  s.panels.map (·.id)

/-- The rectangle under a label. -/
def find? (s : Layout α) (id : PanelId) : Option (Rect α) :=
  (s.panels.find? (·.id = id)).map (·.rect)

/-- Whether a panel has the label. -/
def contains (s : Layout α) (id : PanelId) : Bool :=
  (s.find? id).isSome

/-- The rectangle of the panel that waits for its label. -/
def pending? (s : Layout α) : Option (Rect α) :=
  s.find? .pending

/-- The sum of the areas, in label order. -/
def totalArea [Coordinate α] (s : Layout α) : α :=
  Coordinate.sum (s.panels.map (·.rect.area))

/-! ### Editing -/

/-- The layout without panels. -/
def empty (o : Orientation) : Layout α :=
  ⟨o, [], List.Pairwise.nil⟩

/-- Sets the rectangle under a label. -/
def put (s : Layout α) (p : Panel α) : Layout α :=
  { s with panels := p.place s.panels, ascending := s.ascending.place }

/-- Sets several rectangles, from the first to the last. -/
def putAll (s : Layout α) (ps : List (Panel α)) : Layout α :=
  ps.foldl put s

/-- Drops a label, leaving a gap. -/
def erase (s : Layout α) (id : PanelId) : Layout α :=
  { s with panels := s.panels.filter (·.id ≠ id), ascending := s.ascending.filter _ }

/-- One panel that fills the workspace. -/
def single [Coordinate α] (id : PanelId) (o : Orientation) : Layout α :=
  (empty o).put ⟨id, .unit⟩

/-- The layout of panels listed in any order. -/
def ofPanels (o : Orientation) (ps : List (Panel α)) : Except Refusal (Layout α) :=
  ps.foldlM (fun s p => if s.contains p.id then .error (.duplicatePanel p.id) else .ok (s.put p))
    (empty o)

/-- Gives the pending panel a label of its own. -/
def commit (s : Layout α) (id : PanelId) : Except Refusal (Layout α) :=
  if id = .pending then .error .reservedLabel
  else if s.contains id then .error (.duplicatePanel id)
  else match s.pending? with
    | none => .error .nothingPending
    | some rect => .ok ((s.erase .pending).put ⟨id, rect⟩)

/-! ### The rectangle under a label -/

theorem find?_eq_some_iff {s : Layout α} {id : PanelId} {r : Rect α} :
    s.find? id = some r ↔ ⟨id, r⟩ ∈ s.panels := by
  constructor
  · intro h
    obtain ⟨p, hp, rfl⟩ := Option.map_eq_some_iff.1 h
    have hid : p.id = id := by simpa using List.find?_some hp
    subst hid
    exact List.mem_of_find?_eq_some hp
  · intro h
    simp [find?, s.ascending.find?_of_mem h]

theorem contains_iff {s : Layout α} {id : PanelId} : s.contains id ↔ id ∈ s.ids := by
  simp only [contains, ids, List.mem_map, Option.isSome_iff_exists, find?_eq_some_iff]
  constructor
  · rintro ⟨r, h⟩
    exact ⟨_, h, rfl⟩
  · rintro ⟨p, h, rfl⟩
    exact ⟨p.rect, h⟩

theorem ext_find? {s t : Layout α} (ho : s.orientation = t.orientation)
    (h : ∀ id, s.find? id = t.find? id) : s = t := by
  refine ext_panels ho (s.ascending.eq_of_mem_iff t.ascending fun p => ?_)
  have hp := h p.id
  rw [← find?_eq_some_iff (r := p.rect), hp, find?_eq_some_iff]

/-! ### What the edits do to the rectangle under a label -/

@[simp] theorem orientation_empty (o : Orientation) : (empty o : Layout α).orientation = o := rfl

@[simp] theorem orientation_put (s : Layout α) (p : Panel α) :
    (s.put p).orientation = s.orientation := rfl

@[simp] theorem orientation_erase (s : Layout α) (id : PanelId) :
    (s.erase id).orientation = s.orientation := rfl

@[simp] theorem orientation_putAll (s : Layout α) (ps : List (Panel α)) :
    (s.putAll ps).orientation = s.orientation := by
  unfold putAll
  induction ps generalizing s with
  | nil => rfl
  | cons p ps ih => rw [List.foldl_cons, ih, orientation_put]

@[simp] theorem find?_empty (o : Orientation) (id : PanelId) :
    (empty o : Layout α).find? id = none := rfl

theorem find?_place (p : Panel α) (ps : List (Panel α)) (id : PanelId) :
    (p.place ps).find? (·.id = id) =
      if p.id = id then some p else ps.find? (·.id = id) := by
  induction ps with
  | nil => by_cases h : p.id = id <;> simp [Panel.place, h]
  | cons q rest ih =>
    rw [Panel.place]
    split
    · by_cases h : p.id = id <;> simp [h]
    · split
      next heq => by_cases h : p.id = id <;> simp [h, ← heq]
      next hne =>
        by_cases hq : q.id = id
        · simp [hq, show p.id ≠ id from hq ▸ hne]
        · simp [hq, ih]

theorem find?_put (s : Layout α) (p : Panel α) (id : PanelId) :
    (s.put p).find? id = if p.id = id then some p.rect else s.find? id := by
  unfold find? put
  rw [find?_place]
  split <;> rfl

@[simp] theorem find?_put_self (s : Layout α) (p : Panel α) :
    (s.put p).find? p.id = some p.rect := by
  simp [find?_put]

theorem find?_erase (s : Layout α) (a b : PanelId) :
    (s.erase a).find? b = if a = b then none else s.find? b := by
  unfold find? erase
  split
  next h => simp [h]
  next h =>
    congr 1
    rw [List.find?_filter]
    congr 1
    funext p
    by_cases hp : p.id = b
    · simp [hp, Ne.symm h]
    · simp [hp]

@[simp] theorem find?_erase_self (s : Layout α) (id : PanelId) : (s.erase id).find? id = none := by
  simp [find?_erase]

end Layout

end Mosaic
