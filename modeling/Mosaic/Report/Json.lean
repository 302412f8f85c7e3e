import Mosaic.Layout.Json
import Mosaic.Report

/-!
# Reports in JSON
-/

namespace Mosaic

open Json.Reader (Field Schema need needInArray record)

/-- An issue is written with its code, severity, panels and message. -/
def Issue.toJson (i : Issue) : Json :=
  .object [("code", .text i.code.name), ("severity", .text i.severity.name),
    ("panel", .ofOption PanelId.toJson i.panel),
    ("related_panel", .ofOption PanelId.toJson i.related), ("message", .text i.message)]

/-- The parts of an issue that have been read. -/
structure Issue.Parts where
  code : Option IssueCode
  severity : Option Severity
  panel : Option (Option PanelId)
  related : Option (Option PanelId)
  message : Option String

/-- How an issue is read.  The panels may be absent from an object. -/
def Issue.schema : Schema Issue.Parts Issue where
  name := "GridInvariantIssue"
  fields := [
    .of "code" (·.code) (fun s v => { s with code := v })
      (Json.Reader.variant IssueCode.all IssueCode.name),
    .of "severity" (·.severity) (fun s v => { s with severity := v })
      (Json.Reader.variant Severity.all Severity.name),
    .of "panel" (·.panel) (fun s v => { s with panel := some v })
      (Json.Reader.nullable PanelId.reader),
    .of "related_panel" (·.related) (fun s v => { s with related := some v })
      (Json.Reader.nullable PanelId.reader),
    .of "message" (·.message) (fun s v => { s with message := v }) Json.Reader.text]
  closed := false
  start := ⟨none, none, none, none, none⟩
  finish absent form s :=
    return {
      code := ← need absent 0 "code" s.code
      severity := ← need absent 1 "severity" s.severity
      panel := ← needInArray absent form 2 "panel" s.panel
      related := ← needInArray absent form 3 "related_panel" s.related
      message := ← need absent 4 "message" s.message }

/-- A report is written with its issues. -/
def Report.toJson (r : Report) : Json :=
  .object [("issues", .array (r.issues.map Issue.toJson))]

/-- How a report is read. -/
def Report.schema : Schema (Option (List Issue)) Report where
  name := "GridInvariantReport"
  fields := [
    .of "issues" id (fun _ v => v) (Json.Reader.sequence (record Issue.schema))]
  closed := false
  start := none
  finish absent _ s := return ⟨← need absent 0 "issues" s⟩

end Mosaic
