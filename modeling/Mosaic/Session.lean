import Mosaic.Config
import Mosaic.Coordinate.Float
import Mosaic.Layout.Matching
import Mosaic.Layout.Removal

/-!
# Sessions

A session has settings, a layout, and layouts kept under names.  A step either replaces the layout,
or only looks at it, or is refused and changes nothing.
-/

namespace Mosaic

/-- Settings, the layout, and the layouts that have been kept, the last one first. -/
structure Session where
  config : Config
  layout : Layout Float
  kept : List (String × Layout Float)

/-- What can be looked at in a layout. -/
inductive View where
  | info
  | validity
  | report
  | counts
  | handles
  | json

/-- A step of a session. -/
inductive Step where
  /-- Sets the settings and begins with one panel. -/
  | begin (config : Config) (id : PanelId)
  | setLimits (limits : Limits)
  | clear (orientation : Orientation)
  | single (id : PanelId) (orientation : Orientation)
  | load (orientation : Orientation) (panels : List (Panel Float))
  | candidates
  /-- Takes a candidate, counted round. -/
  | pick (n : Nat)
  /-- Takes a candidate, counted round, and gives its pending panel a label. -/
  | split (n : Nat) (id : PanelId)
  | commit (id : PanelId)
  | remove (id : PanelId)
  /-- Removes the panel at a place in label order, counted round. -/
  | removeAt (n : Nat)
  | put (panel : Panel Float)
  | erase (id : PanelId)
  | putAll (panels : List (Panel Float))
  | keep (name : String)
  | restore (name : String)
  | compare (name : String)
  | find (id : PanelId)
  | look (view : View)

/-- What a step tells. -/
inductive Reply where
  | done
  | config (c : Config)
  | candidates (base : Layout Float) (next : List (Layout Float))
  | picked (index count : Nat)
  | noCandidates
  | removed (id : PanelId)
  | noPanels
  | comparison (equal sameGeometry : Bool)
  | found (rect : Option (Rect Float))
  | view (v : View) (layout : Layout Float)
  | notKept

/-- How a step ends. -/
inductive Outcome where
  | replaced (reply : Reply)
  | looked (reply : Reply)
  | refused (reason : Refusal)

namespace Session

/-- The session before any step. -/
def start : Session :=
  ⟨.standard, .empty .horizontal, []⟩

/-- Replaces the layout. -/
def replace (s : Session) (layout : Layout Float) (reply : Reply) : Outcome × Session :=
  (.replaced reply, { s with layout })

/-- Replaces the layout by the result of an operation, unless that refuses. -/
def replaceBy (s : Session) (layout : Except Refusal (Layout Float)) (reply : Reply) :
    Outcome × Session :=
  match layout with
  | .ok layout => s.replace layout reply
  | .error reason => (.refused reason, s)

/-- Looks without changing anything. -/
def look (s : Session) (reply : Reply) : Outcome × Session :=
  (.looked reply, s)

/-- Takes a candidate, counted round, after a last operation on it. -/
def choose (s : Session) (n : Nat) (finish : Layout Float → Except Refusal (Layout Float)) :
    Outcome × Session :=
  match s.config.candidates s.layout with
  | .error reason => (.refused reason, s)
  | .ok next =>
    match next[n % next.length]? with
    | none => s.look .noCandidates
    | some layout => s.replaceBy (finish layout) (.picked (n % next.length) next.length)

/-- Looks at a layout kept under a name. -/
def withKept (s : Session) (name : String) (f : Layout Float → Outcome × Session) :
    Outcome × Session :=
  match s.kept.lookup name with
  | none => s.look .notKept
  | some layout => f layout

/-- Takes a step. -/
def step (s : Session) : Step → Outcome × Session
  | .begin config id => { s with config }.replace (config.initial id) .done
  | .setLimits limits =>
    let config := { s.config with limits }
    { s with config }.look (.config config)
  | .clear o => s.replace (.empty o) .done
  | .single id o => s.replace (.single id o) .done
  | .load o panels => s.replaceBy (Layout.ofPanels o panels) .done
  | .candidates =>
    match s.config.candidates s.layout with
    | .error reason => (.refused reason, s)
    | .ok next => s.look (.candidates s.layout next)
  | .pick n => s.choose n .ok
  | .split n id => s.choose n (·.commit id)
  | .commit id => s.replaceBy (s.layout.commit id) .done
  | .remove id => s.replaceBy (s.layout.remove id) .done
  | .removeAt n =>
    match s.layout.ids[n % s.layout.size]? with
    | none => s.look .noPanels
    | some id => s.replaceBy (s.layout.remove id) (.removed id)
  | .put panel => s.replace (s.layout.put panel) .done
  | .erase id => s.replace (s.layout.erase id) .done
  | .putAll panels => s.replace (s.layout.putAll panels) .done
  | .keep name => { s with kept := (name, s.layout) :: s.kept }.look .done
  | .restore name => s.withKept name fun layout => s.replace layout .done
  | .compare name => s.withKept name fun layout =>
      s.look (.comparison (s.layout.Equal layout) (s.layout.sameGeometry layout))
  | .find id => s.look (.found (s.layout.find? id))
  | .look view => s.look (.view view s.layout)

end Session

end Mosaic
