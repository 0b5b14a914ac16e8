import Switchboard.Registry.Command
import Switchboard.Route.Pattern
import Switchboard.Session.Error

/-!
# The exchange

An exchange is a registry at work: the queue of its commands, the tasks that carry out its effects,
what the home connection provides, the callers that wait, and the handles that keep it going.

The queue has a capacity. A task whose command finds no room waits in line, so the commands past the
capacity are those of tasks that wait. A call is not kept waiting: it is refused instead.
-/

namespace Switchboard

/-- What the home connection provides. -/
structure Provider where
  next : RegistrationId := 1
  /-- The patterns by registration. -/
  provided : Table RegistrationId String := ∅
  /-- The registrations that have been withdrawn, in order. -/
  withdrawn : List RegistrationId := []
deriving DecidableEq, Repr

namespace Provider

/-- Provides a pattern under a registration that has not been used. -/
def provide (p : Provider) (pattern : String) : RegistrationId × Provider :=
  (p.next, { p with next := p.next + 1, provided := p.provided.insert p.next pattern })

/-- Withdraws a registration. -/
def withdraw (p : Provider) (r : RegistrationId) : Provider :=
  { p with provided := p.provided.erase r, withdrawn := p.withdrawn ++ [r] }

/-- The patterns, in the order of their registrations. -/
def patterns (p : Provider) : List String := p.provided.values

/-- The registration of a pattern, the oldest of several. -/
def registration? (p : Provider) (pattern : String) : Option RegistrationId :=
  (p.provided.entries.find? (·.2 = pattern)).map Prod.fst

/-- Whether a procedure begins with one of the patterns. -/
def serves (p : Provider) (procedure : String) : Bool :=
  p.patterns.any fun pattern => MatchMode.leading.selects pattern procedure

end Provider

/-! ## Tasks -/

/-- How far an attempt has come. -/
inductive DialStage
  /-- It has not begun yet. -/
  | started
  /-- A connection is being made. -/
  | dialing
  /-- The pattern of the domain is being provided. -/
  | providing (connection : ConnectionId)
  /-- The outcome has to be told. -/
  | finished (outcome : Option Link)
deriving DecidableEq, Repr

/-- An attempt to reach a domain. -/
structure Dial where
  domain : String
  address : Endpoint
  stage : DialStage := .started
deriving DecidableEq, Repr

/-- A watch over the connection of a session. -/
structure LossWatch where
  domain : String
  connection : ConnectionId
deriving DecidableEq, Repr

/-- How far a forwarded call has come. -/
inductive ForwardStage
  /-- It has not been made yet. -/
  | ready
  /-- The other side is at work. -/
  | calling
  /-- The permit is given back; the reply has to be passed on. -/
  | answering (reply : Reply)
deriving DecidableEq, Repr

/-- A call on its way through. -/
structure Forward where
  connection : ConnectionId
  procedure : String
  arguments : CallResult
  stage : ForwardStage := .ready
deriving DecidableEq, Repr

/-- Whether the other side has not returned yet. -/
def Forward.isOutstanding (f : Forward) : Bool :=
  match f.stage with
  | .answering _ => false
  | _ => true

/-- Where a request for the sessions waits for its answer. -/
inductive QuerySlot
  | waiting
  | answered (listing : List (String × Entry))
  /-- The registry is no longer running. -/
  | closed
deriving DecidableEq, Repr

/-! ## The state -/

/-- A registry at work. -/
structure Exchange where
  registry : Registry
  running : Bool := true
  /-- The name of the next attempt. -/
  nextSession : SessionId
  /-- The commands, the oldest first. -/
  queue : List Command := []
  dials : Table SessionId Dial := ∅
  watches : Table SessionId LossWatch := ∅
  /-- The registrations that are to be withdrawn. -/
  withdrawals : List RegistrationId := []
  forwards : Table CallId Forward := ∅
  provider : Provider
  /-- The connections that are lost. -/
  lost : List ConnectionId := []
  /-- The domains that the discovery side has yet to forget, the oldest first. -/
  forgets : List String := []
  nextCall : CallId := 0
  calls : Table CallId ReplySlot := ∅
  nextQuery : QueryId := 0
  queries : Table QueryId QuerySlot := ∅
  /-- How many handles there are. -/
  handles : Nat := 1
  /-- Whether discovery events are followed. -/
  following : Bool := false
  /-- How many commands have to be handled before the follower's last one is in the queue. -/
  followerWait : Nat := 0
deriving DecidableEq, Repr

namespace Exchange

/-- How many commands the queue holds. -/
def capacity : Nat := 256

/-- The connection that serves the home domain. -/
def homeConnection : ConnectionId := 0

/-- What callers are told once the registry has stopped. -/
def closedMessage : String := "session registry is no longer running"

/-! ## Starting -/

/-- Why an exchange does not start. -/
inductive StartError
  | invalidName (fault : NameFault)
  | noPermits
  /-- The home connection refuses the pattern of the home domain. -/
  | notProvided (error : SessionError)
  /-- There are more permits than can be counted, which ends the program. -/
  | tooManyPermits
deriving DecidableEq, Repr

/-- The largest number of permits that can be counted. -/
def maxPermits : Nat := 2305843009213693951

/-- The error in words. -/
def StartError.message : StartError → String
  | invalidName fault => "invalid local domain: invalid domain: " ++ fault.message
  | noPermits => "max_in_flight_calls must be at least 1"
  | notProvided error => "failed to provide local prefix: " ++ error.message
  | tooManyPermits => "max_in_flight_calls must be at most " ++ toString maxPermits

/-- Starts an exchange for a home domain. The home connection answers with `refusal` when it does
not provide the domain's pattern. -/
def start (name : String) (permits : Nat) (refusal : Option SessionError) :
    Except StartError Exchange :=
  match checkDomainName name with
  | .error fault => .error (.invalidName fault)
  | .ok () =>
    if permits = 0 then .error .noPermits
    else
      match refusal with
      | some error => .error (.notProvided error)
      | none =>
        if maxPermits < permits then .error .tooManyPermits
        else
          let (registration, provider) := ({} : Provider).provide (DomainInfo.routePattern name)
          .ok { registry := .start name 0 ⟨homeConnection, registration⟩ permits
                nextSession := 1
                provider }

/-! ## Sending commands -/

/-- Whether the queue is kept open: by a handle, by the follower of discovery events, or by a task
that waits in line. -/
def isHeld (e : Exchange) : Bool :=
  0 < e.handles || e.following || capacity < e.queue.length

/-- Whether the queue has no room. -/
def isFull (e : Exchange) : Bool := capacity ≤ e.queue.length

/-- A command joins the queue, or the line behind it. A registry that has stopped takes none. -/
def send (e : Exchange) (c : Command) : Option Exchange :=
  if e.running then some { e with queue := e.queue ++ [c] } else none

/-- A task tells what it has to tell, if the queue is still kept open. -/
def tell (e : Exchange) (c : Command) : Exchange :=
  if e.isHeld then (e.send c).getD e else e

/-- A call comes in. It is refused at once when the registry has stopped or the queue is full. -/
def offer (e : Exchange) (i : Invocation) : Exchange :=
  let slot : ReplySlot :=
    if !e.running || !e.isHeld then .answered (.error closedMessage)
    else if e.isFull then .answered (.error RouteError.busy.message)
    else .waiting
  { e with
    nextCall := e.nextCall + 1
    calls := e.calls.insert e.nextCall slot
    queue := if slot.isWaiting then e.queue ++ [.route e.nextCall i] else e.queue }

/-- The sessions are asked for. -/
def ask (e : Exchange) : Exchange :=
  { e with
    nextQuery := e.nextQuery + 1
    queries := e.queries.insert e.nextQuery (if e.running then .waiting else .closed)
    queue := if e.running then e.queue ++ [.list e.nextQuery] else e.queue }

/-- What a call has been answered. -/
def slot (e : Exchange) (call : CallId) : ReplySlot := (e.calls.get? call).getD .abandoned

end Exchange
end Switchboard
