import Mosaic.Config.Toml

/-!
# Settings in a file
-/

namespace Mosaic.Config

/-- What is found under the name of a file. -/
inductive FileContent where
  | nothing
  | directory
  | bytes (content : ByteArray)

/-- The settings that a file holds, whose content has to be text in UTF-8. -/
def ofFile : FileContent → Except ConfigFault Config
  | .nothing => .error (.unreadable .missing)
  | .directory => .error (.unreadable .directory)
  | .bytes content =>
    match String.fromUTF8? content with
    | none => .error (.unreadable .notText)
    | some text => ofToml text

end Mosaic.Config
