import Mosaic.Panel

/-!
# Refusals

Why an operation on layouts does not apply to its arguments.
-/

namespace Mosaic

/-- The reason why an operation refuses its arguments. -/
inductive Refusal where
  /-- The reserved label was offered as a panel's own. -/
  | reservedLabel
  /-- No panel of the layout has this label. -/
  | unknownPanel (id : PanelId)
  /-- Two panels would have this label. -/
  | duplicatePanel (id : PanelId)
  /-- One of the limits leaves no room for any panel. -/
  | noCapacity (columns rows : UInt32)
  /-- There are more panels than the limits allow. -/
  | overCapacity (panels capacity : Nat)
  /-- A panel still waits for its label. -/
  | stillPending
  /-- No panel waits for a label. -/
  | nothingPending
  /-- No side of the panel is covered by neighbours that could take its place. -/
  | noNeighbour (id : PanelId)
  deriving DecidableEq

namespace Refusal

/-- The reason in words. -/
def message : Refusal → String
  | reservedLabel => "panel id 0 is reserved for pending panels"
  | unknownPanel id => s!"panel {id.text} is not part of the workspace"
  | duplicatePanel id => s!"panel {id.text} appears more than once"
  | noCapacity c r => s!"grid capacity must be at least 1x1 (got {c.toNat}x{r.toNat})"
  | overCapacity n capacity => s!"workspace holds {n} panels but capacity is {capacity}"
  | stillPending => "workspace already contains a pending panel"
  | nothingPending => "workspace has no pending panel to assign"
  | noNeighbour id => s!"panel {id.text} has no neighbor that can absorb its area"

end Refusal

/-- The label with the given number, unless that is the reserved one. -/
def PanelId.ofNumber (n : UInt64) : Except Refusal PanelId :=
  if n = 0 then .error .reservedLabel else .ok ⟨n⟩

end Mosaic
