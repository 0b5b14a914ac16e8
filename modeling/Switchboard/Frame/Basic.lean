import Switchboard.Call.Result
import Switchboard.Route.Pattern

/-!
# Frames

A session speaks in frames: one JSON object a line, told apart by its member `type`, which is
written first. The other members follow in a fixed order for each kind of frame.

* `Frame.render` is the line of a frame, with the line feed that ends it.
* `Frame.replyTo` is the request that a frame answers.
-/

namespace Switchboard

/-- The kinds of frames. -/
inductive FrameKind
  | hello
  | welcome
  | abort
  | call
  | result
  | error
  | register
  | registered
  | unregister
  | unregistered
  | invocation
  | yield
deriving DecidableEq, Repr

/-- What two ends of a session say to each other. -/
inductive Frame
  /-- The client joins a realm. -/
  | hello (realm : String)
  /-- The router accepts the client. -/
  | welcome (session : UInt64)
  /-- The router refuses the client. -/
  | abort (message : String)
  /-- The client calls a procedure. -/
  | call (request : UInt64) (procedure : String) (args : Args) (kwargs : KwArgs)
  /-- What a call returned. -/
  | result (request : UInt64) (args : Args) (kwargs : KwArgs)
  /-- Why a request or an invocation failed. -/
  | error (request : UInt64) (message : String)
  /-- The client offers to handle the procedures of a pattern. -/
  | register (request : UInt64) (pattern : String) (mode : MatchMode)
  /-- The offer is accepted under a number. -/
  | registered (request registration : UInt64)
  /-- The client withdraws an offer. -/
  | unregister (request registration : UInt64)
  /-- The offer is withdrawn. -/
  | unregistered (request : UInt64)
  /-- The router calls on a registration; it may name the procedure that was addressed. -/
  | invocation (request registration : UInt64) (procedure : Option String) (args : Args)
      (kwargs : KwArgs)
  /-- What an invocation returned. -/
  | yield (request : UInt64) (args : Args) (kwargs : KwArgs)
deriving DecidableEq, Repr

/-! ## Kinds -/

namespace FrameKind

/-- All kinds, in order. -/
def all : List FrameKind :=
  [hello, welcome, abort, call, result, error, register, registered, unregister, unregistered,
    invocation, yield]

/-- The name of a kind as frames carry it. -/
def name : FrameKind → String
  | hello => "hello"
  | welcome => "welcome"
  | abort => "abort"
  | call => "call"
  | result => "result"
  | error => "error"
  | register => "register"
  | registered => "registered"
  | unregister => "unregister"
  | unregistered => "unregistered"
  | invocation => "invocation"
  | yield => "yield"

/-- The name of a kind as messages carry it. -/
def title : FrameKind → String
  | hello => "Hello"
  | welcome => "Welcome"
  | abort => "Abort"
  | call => "Call"
  | result => "Result"
  | error => "Error"
  | register => "Register"
  | registered => "Registered"
  | unregister => "Unregister"
  | unregistered => "Unregistered"
  | invocation => "Invocation"
  | yield => "Yield"

/-- The kind of a name. -/
def ofName? (s : String) : Option FrameKind := all.find? (·.name == s)

end FrameKind

namespace Frame

/-- The kind of a frame. -/
def kind : Frame → FrameKind
  | hello .. => .hello
  | welcome .. => .welcome
  | abort .. => .abort
  | call .. => .call
  | result .. => .result
  | error .. => .error
  | register .. => .register
  | registered .. => .registered
  | unregister .. => .unregister
  | unregistered .. => .unregistered
  | invocation .. => .invocation
  | yield .. => .yield

/-- The request that a frame answers. -/
def replyTo : Frame → Option UInt64
  | result request .. | error request .. | registered request .. | unregistered request =>
    some request
  | _ => none

/-! ## Writing -/

/-- A word as a value. -/
def word (n : UInt64) : Json := .num (.int n.toNat)

/-- The members of a frame behind its type. -/
def members : Frame → List Json.Member
  | hello realm => [("realm", .str realm)]
  | welcome session => [("session", word session)]
  | abort message => [("message", .str message)]
  | call request procedure args kwargs =>
    [("request", word request), ("procedure", .str procedure), ("args", .arr args),
      ("kwargs", .obj kwargs)]
  | result request args kwargs =>
    [("request", word request), ("args", .arr args), ("kwargs", .obj kwargs)]
  | error request message => [("request", word request), ("message", .str message)]
  | register request pattern mode =>
    [("request", word request), ("pattern", .str pattern), ("match", .str mode.name)]
  | registered request registration =>
    [("request", word request), ("registration", word registration)]
  | unregister request registration =>
    [("request", word request), ("registration", word registration)]
  | unregistered request => [("request", word request)]
  | invocation request registration procedure args kwargs =>
    [("request", word request), ("registration", word registration),
      ("procedure", procedure.elim .null .str), ("args", .arr args), ("kwargs", .obj kwargs)]
  | yield request args kwargs =>
    [("request", word request), ("args", .arr args), ("kwargs", .obj kwargs)]

/-- A frame as a value. -/
def toJson (f : Frame) : Json := .obj (("type", .str f.kind.name) :: f.members)

/-- A frame as a line, with its line feed. -/
def line (f : Frame) : List Char := f.toJson.write ++ ['\n']

/-- A frame as a line, with its line feed. -/
def render (f : Frame) : String := String.ofList f.line

end Frame
end Switchboard
