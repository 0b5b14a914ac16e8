import Switchboard.Frame.Describe
import Switchboard.Json.Error
import Switchboard.Net.Endpoint

/-!
# Errors of sessions

A session may fail to open, be lost, be told by the other side that a request has failed, or be
sent what it cannot make sense of.
-/

namespace Switchboard

/-- What the network answers to an attempt. -/
inductive NetworkFault
  | unreachable
  | refused
  /-- A line that is no UTF-8. -/
  | invalidText
deriving DecidableEq, Repr

/-- The requests of a session, named by the frames that make them. -/
inductive RequestKind
  | call
  | register
  | unregister
deriving DecidableEq, Repr

/-- What makes no sense to a session. -/
inductive ProtocolFault
  /-- A line that is no frame. -/
  | unreadable (cause : Json.Error) (line : String)
  /-- A frame that does not answer the greeting. -/
  | notWelcome (frame : Frame)
  /-- A reply of the wrong kind. -/
  | unexpectedReply (request : RequestKind) (frame : Frame)
deriving DecidableEq, Repr

/-- Why a session does not open or a request fails. -/
inductive SessionError
  | connectFailed (peer : Endpoint) (fault : NetworkFault)
  | disconnected
  /-- The other side has failed the request, for the reason it gives. -/
  | remote (message : String)
  | protocol (fault : ProtocolFault)
  | io (fault : NetworkFault)
deriving DecidableEq, Repr

/-- The fault in words. -/
def NetworkFault.message : NetworkFault → String
  | unreachable => "Network is unreachable (os error 101)"
  | refused => "Connection refused (os error 111)"
  | invalidText => "stream did not contain valid UTF-8"

/-- The request in words. -/
def RequestKind.name : RequestKind → String
  | call => "call"
  | register => "register"
  | unregister => "unregister"

/-- The fault in words. -/
def ProtocolFault.message : ProtocolFault → String
  | unreadable cause line => cause.message ++ ": " ++ line
  | notWelcome frame => "expected welcome, got " ++ frame.describe
  | unexpectedReply request frame =>
    "unexpected reply to " ++ request.name ++ ": " ++ frame.describe

namespace SessionError

/-- The error in words. -/
def message : SessionError → String
  | connectFailed peer fault => "failed to connect to " ++ peer.render ++ ": " ++ fault.message
  | disconnected => "session disconnected"
  | remote message => message
  | protocol fault => "rpc protocol error: " ++ fault.message
  | io fault => "rpc I/O error: " ++ fault.message

/-- The error and what has caused it, the outermost first. -/
def causes : SessionError → List String
  | e@(connectFailed _ fault) | e@(io fault) => [e.message, fault.message]
  | e => [e.message]

end SessionError
end Switchboard
