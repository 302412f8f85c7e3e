import Mosaic.Layout.Occupancy
import Mosaic.Limits

/-!
# Candidates for the next layout

The next layout halves one panel.  The panel keeps one half, and the other one waits for a label.
A cut adds a panel to the lines across it, so it is allowed while these have room: a vertical cut
while there are fewer columns than the limit, a horizontal one while there are fewer rows.
-/

namespace Mosaic

variable {α : Type} [Coordinate α]

namespace Layout

/-- The layout in which a panel has shrunk to one half and the other one is pending. -/
def withHalves (s : Layout α) (id : PanelId) (kept created : Rect α) : Layout α :=
  s.putAll [⟨id, kept⟩, ⟨.pending, created⟩]

/-- The results of one cut: the panel keeps the first half, and then the second one, unless the
halves are near each other. -/
def halvings (s : Layout α) (p : Panel α) (cut : Orientation) : List (Layout α) :=
  let (first, second) := p.rect.split cut
  s.withHalves p.id first second ::
    if first.Near second then [] else [s.withHalves p.id second first]

/-- A cut of the panel leaves the lines across it within the limit. -/
def Admits (s : Layout α) (limits : Limits) (p : Panel α) (cut : Orientation) : Prop :=
  s.occupancy cut.flip p < limits.onLine cut.flip

instance (s : Layout α) (limits : Limits) (p : Panel α) (cut : Orientation) :
    Decidable (s.Admits limits p cut) :=
  inferInstanceAs (Decidable (_ < _))

/-- The results of all cuts of one panel, vertical cuts first. -/
def candidatesAt (s : Layout α) (limits : Limits) (p : Panel α) : List (Layout α) :=
  ([.vertical, .horizontal].filter (s.Admits limits p)).flatMap (s.halvings p)

/-- Every layout that halves one panel, in label order.  There is none if the layout is full. -/
def candidates (s : Layout α) (limits : Limits) : Except Refusal (List (Layout α)) :=
  if ¬ limits.Roomy then .error (.noCapacity limits.columns limits.rows)
  else if s.contains .pending then .error .stillPending
  else if limits.capacity < s.size then .error (.overCapacity s.size limits.capacity)
  else if s.size = limits.capacity then .ok []
  else .ok (s.panels.flatMap (s.candidatesAt limits))

end Layout

end Mosaic
