import Switchboard.Session.Error
import Switchboard.Session.Lines

/-!
# Opening a session

The client says which realm it joins, and the router's first line decides: a welcome opens the
session, and anything else is an error.
-/

namespace Switchboard.Handshake

/-- What the client says first. -/
def greeting (realm : String) : Frame := .hello realm

/-- What the router's first line means: the number of the session, or why there is none. -/
def judge : LineEvent → Except SessionError UInt64
  | .ended => .error .disconnected
  | .damaged => .error (.io .invalidText)
  | .line text =>
    let line := String.ofList text
    match Frame.parse line with
    | .error cause => .error (.protocol (.unreadable cause line))
    | .ok (.welcome session) => .ok session
    | .ok (.abort message) => .error (.remote message)
    | .ok frame => .error (.protocol (.notWelcome frame))

/-- Reads the router's first line, if it is all there. -/
def read? (s : Inbound) : Option (Except SessionError UInt64 × Inbound) :=
  s.next?.map fun (event, rest) => (judge event, rest)

end Switchboard.Handshake
