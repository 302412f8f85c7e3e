import Mosaic.Json.Record
import Mosaic.Layout.Handles

/-!
# Layouts and handles in JSON

A layout is written with its orientation and its panels in label order.  It is read from panels in
any order, and without an orientation it is horizontal; labels that occur twice are noticed once
all panels have been read.
-/

namespace Mosaic

open Json.Reader (Field Schema need record)

/-! ### Orientations and labels -/

/-- An orientation is written as its name. -/
def Orientation.toJson (o : Orientation) : Json :=
  .text o.name

/-- Reads an orientation. -/
def Orientation.reader : Json.Reader Orientation :=
  Json.Reader.variant Orientation.all Orientation.name

/-- A label is written as its number. -/
def PanelId.toJson (id : PanelId) : Json :=
  .natural id.number.toNat

/-- Reads a label, which may be the reserved one. -/
def PanelId.reader : Json.Reader PanelId := do
  return ⟨← Json.Reader.word64⟩

/-! ### Points and rectangles -/

/-- A point is written with its two coordinates. -/
def Point.toJson (p : Point Float) : Json :=
  .object [("x", .number p.x), ("y", .number p.y)]

/-- How a point is read. -/
def Point.schema : Schema (Point (Option Float)) (Point Float) where
  name := "Point"
  fields := [
    .of "x" (·.x) (fun s v => { s with x := v }) Json.Reader.double,
    .of "y" (·.y) (fun s v => { s with y := v }) Json.Reader.double]
  closed := false
  start := ⟨none, none⟩
  finish absent _ s := return ⟨← need absent 0 "x" s.x, ← need absent 1 "y" s.y⟩

/-- A rectangle is written with its four numbers. -/
def Rect.toJson (r : Rect Float) : Json :=
  .object [("x", .number r.x), ("y", .number r.y), ("width", .number r.width),
    ("height", .number r.height)]

/-- How a rectangle is read. -/
def Rect.schema : Schema (Rect (Option Float)) (Rect Float) where
  name := "Rect"
  fields := [
    .of "x" (·.x) (fun s v => { s with x := v }) Json.Reader.double,
    .of "y" (·.y) (fun s v => { s with y := v }) Json.Reader.double,
    .of "width" (·.width) (fun s v => { s with width := v }) Json.Reader.double,
    .of "height" (·.height) (fun s v => { s with height := v }) Json.Reader.double]
  closed := false
  start := ⟨none, none, none, none⟩
  finish absent _ s :=
    return ⟨← need absent 0 "x" s.x, ← need absent 1 "y" s.y,
      ← need absent 2 "width" s.width, ← need absent 3 "height" s.height⟩

/-! ### Panels and layouts -/

/-- A panel is written with its label and its rectangle. -/
def Panel.toJson (p : Panel Float) : Json :=
  .object [("id", p.id.toJson), ("rect", p.rect.toJson)]

/-- How a panel is read. -/
def Panel.schema : Schema (Option PanelId × Option (Rect Float)) (Panel Float) where
  name := "PanelGridState"
  fields := [
    .of "id" (·.1) (fun s v => (v, s.2)) PanelId.reader,
    .of "rect" (·.2) (fun s v => (s.1, v)) (record Rect.schema)]
  closed := false
  start := (none, none)
  finish absent _ s := return ⟨← need absent 0 "id" s.1, ← need absent 1 "rect" s.2⟩

/-- A layout is written with its orientation and its panels. -/
def Layout.toJson (s : Layout Float) : Json :=
  .object [("orientation", s.orientation.toJson), ("panels", .array (s.panels.map Panel.toJson))]

/-- How the parts of a layout are read. -/
def Layout.schema :
    Schema (Option Orientation × Option (List (Panel Float)))
      (Orientation × List (Panel Float)) where
  name := "GridStateRecord"
  fields := [
    .of "orientation" (·.1) (fun s v => (v, s.2)) Orientation.reader,
    .of "panels" (·.2) (fun s v => (s.1, v)) (Json.Reader.sequence (record Panel.schema))]
  closed := false
  start := (none, none)
  finish absent _ s := return (s.1.getD .horizontal, ← need absent 1 "panels" s.2)

/-- Reads a layout. -/
def Layout.reader : Json.Reader (Layout Float) := do
  let (o, ps) ← record Layout.schema
  match Layout.ofPanels o ps with
  | .ok s => return s
  | .error reason => throw (.mismatch (.refused reason))

/-! ### Handles -/

/-- A handle is written with its boundary, its position and its panels. -/
def Handle.toJson (h : Handle Float) : Json :=
  .object [("orientation", h.boundary.toJson), ("position", h.position.toJson),
    ("connected_panels", .array (h.panels.map PanelId.toJson))]

/-- How a handle is read. -/
def Handle.schema :
    Schema (Option Orientation × Option (Point Float) × Option (List PanelId))
      (Handle Float) where
  name := "ResizerInfo"
  fields := [
    .of "orientation" (·.1) (fun s v => (v, s.2)) Orientation.reader,
    .of "position" (·.2.1) (fun s v => (s.1, v, s.2.2)) (record Point.schema),
    .of "connected_panels" (·.2.2) (fun s v => (s.1, s.2.1, v))
      (Json.Reader.sequence PanelId.reader)]
  closed := false
  start := (none, none, none)
  finish absent _ s :=
    return ⟨← need absent 0 "orientation" s.1, ← need absent 1 "position" s.2.1,
      ← need absent 2 "connected_panels" s.2.2⟩

end Mosaic
