import Mosaic.Layout.Occupancy
import Mosaic.Proofs.Sides

/-!
# What the count of a band counts

The band of a panel along a line is meant to hold the panels that begin where it begins, seen across
the line, and those that share a stretch of one of its two ends.  The count asks of a panel at the
line of an end that it reaches below the start of the band or begins above it, and every panel does
one or the other.  So it takes every panel that ends on the line of an end, wherever on that line.

* `Rect.SharesBand`: level with the band, or along a stretch of one of its ends.
* `Rect.Strays`: on the line of an end, and along no stretch of it.
* `Rect.inBand_iff_sharesBand_or_strays`: on the mesh the count takes these and no others.
* `Layout.bandCount_eq_add_strays`: the count of a band exceeds the panels that share it by the
  panels that stray.
-/

namespace Mosaic

open Coordinate

namespace Rect

/-- The rectangle begins where the band does, seen across the line. -/
def Level (r band : Rect ℚ) (line : Orientation) : Prop :=
  (r.along line.flip).start = (band.along line.flip).start

/-- The rectangle lies beyond an end of the band and ends on the line of that end. -/
def AtEnd (r band : Rect ℚ) (line : Orientation) : Prop :=
  ∃ side, r.edge line.flip side.flip = band.edge line.flip side

/-- The rectangle is level with the band, or shares a stretch of one of its ends. -/
def SharesBand (r band : Rect ℚ) (line : Orientation) : Prop :=
  r.Level band line ∨ ∃ side, band.Borders r line.flip side

/-- The rectangle is on the line of an end of the band but has no stretch in common with the end,
and is not level with the band. -/
def Strays (r band : Rect ℚ) (line : Orientation) : Prop :=
  ¬ r.Level band line ∧ r.AtEnd band line ∧ ¬ (band.along line.flip).Meets (r.along line.flip)

instance (r band : Rect ℚ) (line : Orientation) : Decidable (r.Level band line) :=
  inferInstanceAs (Decidable (_ = _))
instance (r band : Rect ℚ) (line : Orientation) : Decidable (r.AtEnd band line) :=
  inferInstanceAs (Decidable (∃ _, _))
instance (r band : Rect ℚ) (line : Orientation) : Decidable (r.SharesBand band line) :=
  inferInstanceAs (Decidable (_ ∨ ∃ _, _))
instance (r band : Rect ℚ) (line : Orientation) : Decidable (r.Strays band line) :=
  inferInstanceAs (Decidable (_ ∧ _ ∧ _))

variable {r band : Rect ℚ} {line : Orientation}

theorem sharesBand_iff :
    r.SharesBand band line ↔
      r.Level band line ∨ r.AtEnd band line ∧ (band.along line.flip).Meets (r.along line.flip) :=
  or_congr_right exists_and_right

theorem Strays.not_sharesBand (h : r.Strays band line) : ¬ r.SharesBand band line := by
  obtain ⟨hlevel, -, hmeets⟩ := h
  rw [sharesBand_iff]
  rintro (h | h)
  · exact hlevel h
  · exact hmeets h.2

/-- On the mesh the count takes the rectangles that are level with the band or on the line of an
end. -/
theorem inBand_iff (hr : r.OnMesh) (hband : band.OnMesh) (hpos : (r.along line.flip).Positive) :
    r.InBand band line ↔ r.Level band line ∨ r.AtEnd band line := by
  have hlevel : Coordinate.Near (r.along line.flip).start (band.along line.flip).start ↔
      r.Level band line := (hr.along line.flip).1.near_iff (hband.along line.flip).1
  have hends : (Coordinate.Near (r.along line).start (band.along line).stop ∨
      Coordinate.Near (r.along line).stop (band.along line).start) ↔ r.AtEnd band line := by
    rw [(hr.along line).1.near_iff (hband.along line).stop,
      (hr.along line).stop.near_iff (hband.along line).1]
    constructor
    · rintro (hafter | hbefore)
      · exact ⟨.after, by rw [edge_flip, edge_flip]; exact hafter⟩
      · exact ⟨.before, by rw [edge_flip, edge_flip]; exact hbefore⟩
    · rintro ⟨side, hside⟩
      rw [edge_flip, edge_flip] at hside
      cases side with
      | before => exact Or.inr hside
      | after => exact Or.inl hside
  -- a rectangle that does not begin above the start of the band reaches below it
  have hreaches : AtMost (band.along line.flip).start (r.along line.flip).stop ∨
      AtMost (r.along line.flip).start (band.along line.flip).start := by
    rcases le_total (r.along line.flip).start (band.along line.flip).start with hle | hle
    · exact Or.inr (atMost_of_le hle)
    · exact Or.inl (atMost_of_le (hle.trans (Span.start_lt_stop hpos).le))
  unfold InBand
  rw [hlevel, hends, and_iff_left hreaches]

/-- **On the mesh the count takes what shares the band and what strays, and nothing else.** -/
theorem inBand_iff_sharesBand_or_strays (hr : r.OnMesh) (hband : band.OnMesh)
    (hpos : (r.along line.flip).Positive) :
    r.InBand band line ↔ r.SharesBand band line ∨ r.Strays band line := by
  rw [inBand_iff hr hband hpos, sharesBand_iff]
  unfold Strays
  tauto

end Rect

namespace Layout

variable {s : Layout ℚ} {p : Panel ℚ}

theorem Tiles.bandCount_eq (h : s.Tiles) (hm : s.OnMesh) (hp : p ∈ s.panels)
    (line : Orientation) :
    s.bandCount line p =
      s.panels.countP (·.rect.SharesBand p.rect line) +
        s.panels.countP (·.rect.Strays p.rect line) := by
  have hinBand : ∀ q ∈ s.panels, q.rect.InBand p.rect line ↔
      q.rect.SharesBand p.rect line ∨ q.rect.Strays p.rect line := fun q hq =>
    Rect.inBand_iff_sharesBand_or_strays (hm q hq) (hm p hp) (h.positive q hq _)
  unfold bandCount
  rw [List.countP_eq_countP_filter_add s.panels _ fun q => q.rect.SharesBand p.rect line,
    List.countP_filter, List.countP_filter]
  congr 1
  · refine List.countP_congr fun q hq => ?_
    rw [Bool.and_eq_true, decide_eq_true_eq, decide_eq_true_eq, hinBand q hq]
    exact ⟨And.right, fun hshares => ⟨Or.inl hshares, hshares⟩⟩
  · refine List.countP_congr fun q hq => ?_
    rw [Bool.and_eq_true, Bool.not_eq_true', decide_eq_true_eq, decide_eq_true_eq,
      decide_eq_false_iff_not, hinBand q hq]
    exact ⟨fun hnot => hnot.1.resolve_left hnot.2,
      fun hstrays => ⟨Or.inr hstrays, hstrays.not_sharesBand⟩⟩

/-- **The count of a band is off by the panels that stray.**  It counts the panels that share the
band of `p`, and besides them those on the line of one of its ends that share no stretch of the end.
So it is the number of panels that share the band if and only if no panel strays. -/
theorem bandCount_eq_add_strays (h : s.Tiles) (hm : s.OnMesh) (hp : p ∈ s.panels)
    (line : Orientation) :
    s.bandCount line p =
        s.panels.countP (·.rect.SharesBand p.rect line) +
          s.panels.countP (·.rect.Strays p.rect line) ∧
      (s.bandCount line p = s.panels.countP (·.rect.SharesBand p.rect line) ↔
        ∀ q ∈ s.panels, ¬ q.rect.Strays p.rect line) := by
  have hcount := h.bandCount_eq hm hp line
  refine ⟨hcount, ?_⟩
  rw [hcount, Nat.add_eq_left, List.countP_eq_zero]
  simp only [decide_eq_true_eq]

/-- Two columns of two halves each. -/
def quarters : Layout ℚ :=
  (empty .horizontal).putAll [⟨⟨1⟩, ⟨0, 0, 1 / 2, 1 / 2⟩⟩, ⟨⟨2⟩, ⟨1 / 2, 0, 1 / 2, 1 / 2⟩⟩,
    ⟨⟨3⟩, ⟨0, 1 / 2, 1 / 2, 1 / 2⟩⟩, ⟨⟨4⟩, ⟨1 / 2, 1 / 2, 1 / 2, 1 / 2⟩⟩]

/-- Two quarters share the band of the first one, and the one across the corner strays. -/
theorem bandCount_quarters :
    (quarters.Tiles ∧ quarters.OnMesh ∧ ⟨⟨1⟩, ⟨0, 0, 1 / 2, 1 / 2⟩⟩ ∈ quarters.panels) ∧
      quarters.bandCount .horizontal ⟨⟨1⟩, ⟨0, 0, 1 / 2, 1 / 2⟩⟩ = 2 + 1 := by
  have htiles : quarters.Tiles := by decide +kernel
  have hmesh : quarters.OnMesh := by decide +kernel
  have hmem : ⟨⟨1⟩, ⟨0, 0, 1 / 2, 1 / 2⟩⟩ ∈ quarters.panels := by decide +kernel
  have hshares : quarters.panels.countP
      (·.rect.SharesBand ⟨0, 0, 1 / 2, 1 / 2⟩ .horizontal) = 2 := by decide +kernel
  have hstrays : quarters.panels.countP
      (·.rect.Strays ⟨0, 0, 1 / 2, 1 / 2⟩ .horizontal) = 1 := by decide +kernel
  have hcount := (bandCount_eq_add_strays htiles hmesh hmem .horizontal).1
  rw [hshares, hstrays] at hcount
  exact ⟨⟨htiles, hmesh, hmem⟩, hcount⟩

/-- Each line crosses two of the quarters, but no cut is allowed within three columns and two
rows. -/
example : quarters.panels.map (quarters.crossings .horizontal ·.rect) = [2, 2, 2, 2] ∧
    quarters.candidates ⟨3, 2⟩ = .ok [] := by
  constructor
  · cbv
  · cbv

theorem bandCount_quarters_ne :
    quarters.Tiles ∧ quarters.OnMesh ∧ ∃ p ∈ quarters.panels, ∃ line,
      quarters.bandCount line p ≠ quarters.panels.countP (·.rect.SharesBand p.rect line) := by
  decide +kernel

end Layout

end Mosaic
