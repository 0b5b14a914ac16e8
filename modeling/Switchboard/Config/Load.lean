import Switchboard.Config.Toml
import Switchboard.Store.FileTree
import Switchboard.Text.Utf8

/-!
# Configuration files

A configuration file is text in UTF-8. That it cannot be read is told apart from what it says.
-/

namespace Switchboard
namespace Config

/-- Why no configuration is loaded. -/
inductive LoadError
  | unreadable (path : String) (fault : FileFault)
  | invalid (cause : ParseError)
deriving DecidableEq, Repr

/-- Why a document is no configuration, in words. -/
def ParseError.message : ParseError → String
  | malformed => "invalid TOML"
  | mismatch m => m.message writeFloat

/-- The error and what has caused it, the outermost first. -/
def LoadError.causes : LoadError → List String
  | unreadable path fault =>
    ["I/O error accessing config at " ++ path ++ ": " ++ fault.message, fault.message]
  | invalid cause => ["failed to parse config TOML: " ++ cause.message, cause.message]

/-- The configuration in the file at `path`, of which `content` is what reading it gave. -/
def load (path : String) (content : Except FileFault (List UInt8)) : Except LoadError Config :=
  match content with
  | .error fault => .error (.unreadable path fault)
  | .ok bytes =>
    match Utf8.decode bytes with
    | none => .error (.unreadable path .invalidText)
    | some text =>
      match parseToml (String.ofList text) with
      | .error cause => .error (.invalid cause)
      | .ok c => .ok c

end Config
end Switchboard
