import Mosaic.Coordinate.Float
import Mosaic.Decimal.Style
import Mosaic.Layout.Validity

/-!
# Reports

The words for violations, and the report of a check: a list of issues, each with a code, a severity
and the panels concerned.
-/

namespace Mosaic

/-! ### Violations in words -/

/-- Coordinates have a fraction always, and an exponent from 10¹⁶ on and below 10⁻⁴. -/
def Violation.coordinateStyle : Decimal.Style where
  tie := .up
  positional e := -4 ≤ e ∧ e ≤ 15
  wholeFraction := true
  plusSign := ""
  infinity := "inf"
  notANumber := "NaN"
  signedInfinity := true

/-- Areas are written positionally, and whole ones without a fraction. -/
def Violation.areaStyle : Decimal.Style where
  tie := .up
  positional _ := true
  wholeFraction := false
  plusSign := ""
  infinity := "inf"
  notANumber := "NaN"
  signedInfinity := true

/-- A rectangle with the names of its four numbers. -/
def Rect.describe (r : Rect Float) : String :=
  let w := Violation.coordinateStyle.write
  "Rect \x7b x: " ++ w r.x ++ ", y: " ++ w r.y ++ ", width: " ++ w r.width ++
    ", height: " ++ w r.height ++ " \x7d"

/-- The violation in words. -/
def Violation.message : Violation Float → String
  | outOfBounds id rect => s!"panel {id.text} is out of bounds: {rect.describe}"
  | overlap id other => s!"panel {id.text} intersects with panel {other.text}"
  | coverage total => s!"area of {areaStyle.write total} doesn't match 1.0"

/-! ### Issues -/

/-- The kind of an issue. -/
inductive IssueCode where
  | outOfBounds
  | overlap
  | coverage
  | pendingPanel
  deriving DecidableEq

/-- How grave an issue is. -/
inductive Severity where
  | error
  | warning
  deriving DecidableEq

/-- The word for a code. -/
def IssueCode.name : IssueCode → String
  | outOfBounds => "out_of_bounds"
  | overlap => "overlap"
  | coverage => "coverage"
  | pendingPanel => "pending_panel"

/-- The codes in the order in which they are listed. -/
def IssueCode.all : List IssueCode :=
  [outOfBounds, overlap, coverage, pendingPanel]

/-- The word for a severity. -/
def Severity.name : Severity → String
  | error => "error"
  | warning => "warning"

/-- The severities, the graver one first. -/
def Severity.all : List Severity :=
  [error, warning]

/-- An entry of a report. -/
structure Issue where
  code : IssueCode
  severity : Severity
  panel : Option PanelId
  related : Option PanelId
  message : String
  deriving DecidableEq

/-- The issue that reports a finding. -/
def Finding.issue : Finding Float → Issue
  | .pending id =>
    ⟨.pendingPanel, .warning, some id, none, "split result still carries the pending panel id"⟩
  | .violation v =>
    match v with
    | .outOfBounds id _ => ⟨.outOfBounds, .error, some id, none, v.message⟩
    | .overlap id other => ⟨.overlap, .error, some id, some other, v.message⟩
    | .coverage _ => ⟨.coverage, .error, none, none, v.message⟩

/-- The outcome of a full check. -/
structure Report where
  issues : List Issue
  deriving DecidableEq

namespace Report

/-- Whether some issue is an error. -/
def hasErrors (r : Report) : Bool :=
  r.issues.any (·.severity = .error)

/-- The codes of all issues. -/
def codes (r : Report) : List IssueCode :=
  r.issues.map (·.code)

end Report

/-- The report on a layout. -/
def Layout.report (s : Layout Float) : Report :=
  ⟨s.findings.map Finding.issue⟩

end Mosaic
