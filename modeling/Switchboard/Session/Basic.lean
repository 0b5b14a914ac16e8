import Switchboard.Call.Invocation
import Switchboard.Session.Error
import Switchboard.Store.Table

/-!
# Sessions

A session with a router carries requests in one direction and invocations in the other. A request
waits for the frame that answers it; an invocation goes to the handler of its registration, and what
the handler answers goes back as a frame. Frames on their way out pass through a bounded queue.

A loop that reads and a loop that writes serve the session. When either comes to its end, the loss
of the session is announced and then every waiting request is given up, in two steps between which
other things may happen.
-/

namespace Switchboard

/-- Tells handlers apart. -/
abbrev HandlerId := Nat

/-- What is asked of the router. -/
inductive Demand
  | call (procedure : String) (arguments : CallResult)
  | provide (pattern : String) (mode : MatchMode) (handler : HandlerId)
  | unprovide (registration : UInt64)
deriving DecidableEq, Repr

/-- What a request is answered with. -/
inductive Answer
  | result (value : CallResult)
  | registered (registration : UInt64)
  | withdrawn
deriving DecidableEq, Repr

/-- How a request ends. -/
inductive RequestOutcome
  | granted (answer : Answer)
  | failed (error : SessionError)
deriving DecidableEq, Repr

namespace Demand

/-- The kind of the request. -/
def kind : Demand → RequestKind
  | call .. => .call
  | provide .. => .register
  | unprovide .. => .unregister

/-- The frame that makes the request. -/
def frame (request : UInt64) : Demand → Frame
  | call procedure arguments => .call request procedure arguments.args arguments.kwargs
  | provide pattern mode _ => .register request pattern mode
  | unprovide registration => .unregister request registration

/-- The handler to install once the request is granted. -/
def handler? : Demand → Option HandlerId
  | provide _ _ handler => some handler
  | _ => none

end Demand

namespace RequestKind

/-- What a frame answers to a request of this kind. -/
def interpret (kind : RequestKind) (reply : Frame) : RequestOutcome :=
  match kind, reply with
  | _, .error _ message => .failed (.remote message)
  | call, .result _ args kwargs => .granted (.result ⟨args, kwargs⟩)
  | register, .registered _ registration => .granted (.registered registration)
  | unregister, .unregistered _ => .granted .withdrawn
  | kind, reply => .failed (.protocol (.unexpectedReply kind reply))

end RequestKind

/-! ## Requests -/

/-- Where a request waits for the frame that answers it. -/
inductive ReplyFrame
  | awaited
  | arrived (frame : Frame)
  /-- No frame will be handed over any more. -/
  | never
deriving DecidableEq, Repr

/-- How far a request has come. -/
inductive RequestStage
  /-- Replies can reach it; whether the session is lost has not been looked at yet. -/
  | entered
  /-- Its frame has to join the queue. -/
  | sending
  /-- It waits for its reply. -/
  | waiting
  | done (outcome : RequestOutcome)
deriving DecidableEq, Repr

/-- A request. -/
structure Request where
  demand : Demand
  stage : RequestStage := .entered
  reply : ReplyFrame := .awaited
deriving DecidableEq, Repr

/-- An entry for a request that a reply can reach. -/
structure Waiter where
  /-- The number of the request. -/
  request : Nat
  /-- The handler to install if the reply grants a registration. -/
  handler : Option HandlerId
deriving DecidableEq, Repr

/-! ## Invocations -/

/-- An invocation that has been given to a handler. -/
structure Given where
  /-- The router's number for it. -/
  request : UInt64
  registration : UInt64
  handler : HandlerId
  invocation : Invocation
  slot : ReplySlot := .waiting
  /-- Whether the answer has been sent on its way. -/
  told : Bool := false
deriving DecidableEq, Repr

/-- The frame that answers an invocation, once its handler is done with it. -/
def Given.answer? (g : Given) : Option Frame :=
  match g.slot with
  | .waiting => none
  | .answered (.result r) => some (.yield g.request r.args r.kwargs)
  | .answered (.error message) => some (.error g.request message)
  | .abandoned => some (.error g.request "invocation was dropped")

/-! ## The state -/

/-- How far a loop has come. -/
inductive LoopStage
  | working
  /-- It has ended; the loss is not announced yet. -/
  | ended
  /-- The loss is announced; waiting requests are not given up yet. -/
  | announced
  | over
deriving DecidableEq, Repr

/-- The loops that serve a session. -/
inductive SessionLoop
  | reader
  | writer
deriving DecidableEq, Repr

/-- A session that has been opened. -/
structure Session where
  /-- How many requests there have been. -/
  count : Nat := 0
  /-- The requests by number. -/
  requests : Table Nat Request := ∅
  /-- The requests that a reply can reach, by the number that the router sees. -/
  pending : Table UInt64 Waiter := ∅
  /-- The handlers by registration. -/
  handlers : Table UInt64 HandlerId := ∅
  /-- The invocations that handlers have been given, in order. -/
  given : List Given := []
  /-- The frames in the queue, the oldest first. -/
  outbound : List Frame := []
  /-- The frames that have been written, in order. -/
  written : List Frame := []
  /-- Whether the loss of the session has been announced. -/
  lost : Bool := false
  reader : LoopStage := .working
  writer : LoopStage := .working
deriving DecidableEq, Repr

namespace Session

/-- How many frames the queue holds. -/
def capacity : Nat := 256

/-- The number that the router sees of the request with number `n`: the numbers begin at one and
wrap around. -/
def requestId (n : Nat) : UInt64 := UInt64.ofNat (n + 1)

/-- Whether the queue takes no frames any more. -/
def isClosed (s : Session) : Bool := s.writer = .over

/-- Whether the queue has room. -/
def hasRoom (s : Session) : Bool := s.outbound.length < capacity

/-- All frames that have ever joined the queue and were not lost with it, in order. -/
def queued (s : Session) : List Frame := s.written ++ s.outbound

/-- A frame joins the queue. -/
def push (s : Session) (f : Frame) : Session := { s with outbound := s.outbound ++ [f] }

/-- Changes a request. -/
def modifyRequest (s : Session) (n : Nat) (f : Request → Request) : Session :=
  { s with requests := s.requests.modify n f }

/-- Moves a request to a stage. -/
def advance (s : Session) (n : Nat) (stage : RequestStage) : Session :=
  s.modifyRequest n fun r => { r with stage }

end Session
end Switchboard
