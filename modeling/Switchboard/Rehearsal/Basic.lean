import Switchboard.Discovery.Tracker
import Switchboard.Exchange.Step

/-!
# Rehearsals

A rehearsal runs an exchange against stand-ins: connections that exist in memory only, whose replies
are fixed in advance, which can be held back, refused and lost at will, and which record what they
see. Tasks take turns in the order in which they become ready, so a rehearsal has one outcome.

* `Gate` holds tasks back until they are let through.
* `StandIn` is a connection in memory.
* `Rehearsal` is an exchange with its stand-ins and the tasks that are ready.
-/

namespace Switchboard

/-- What becomes ready: a task at its beginning, or behind the gate that held it back. -/
inductive Turn
  | registry
  /-- The follower of discovery events. -/
  | follower
  | dial (id : SessionId)
  | dialOn (id : SessionId)
  | watch (id : SessionId)
  | withdraw (registration : RegistrationId)
  | forward (call : CallId)
  | forwardOn (call : CallId)
deriving DecidableEq, Repr

/-- A gate lets as many tasks through as it is told to, in the order of their arrival. -/
structure Gate where
  /-- How many more may pass without waiting. -/
  passes : Nat := 0
  waiting : List Turn := []
deriving DecidableEq, Repr

namespace Gate

/-- A task arrives; the outcome tells whether it passes at once. -/
def arrive (g : Gate) (t : Turn) : Bool × Gate :=
  match g.passes with
  | 0 => (false, { g with waiting := g.waiting ++ [t] })
  | passes + 1 => (true, { g with passes })

/-- Lets `n` tasks through, those that wait first; the outcome holds the ones that waited. -/
def letThrough (g : Gate) (n : Nat) : List Turn × Gate :=
  (g.waiting.take n, ⟨g.passes + (n - g.waiting.length), g.waiting.drop n⟩)

end Gate

/-- A task arrives where there may be a gate. -/
def arriveAt (gate : Option Gate) (t : Turn) : Bool × Option Gate :=
  match gate with
  | none => (true, none)
  | some g => (g.arrive t).map id some

/-- A call as a stand-in sees it. -/
structure SeenCall where
  procedure : String
  arguments : CallResult
deriving DecidableEq, Repr

/-- A connection in memory. -/
structure StandIn where
  /-- The calls seen since they were last asked for. -/
  calls : List SeenCall := []
  /-- The fixed replies by procedure. -/
  replies : Table String Reply := ∅
  gate : Option Gate := none
  /-- Whether it refuses to provide patterns. -/
  refusing : Bool := false
deriving DecidableEq, Repr

namespace StandIn

/-- The outcome of a call. Without a fixed reply the arguments come back. -/
def outcome (s : StandIn) (procedure : String) (arguments : CallResult) :
    Except SessionError CallResult :=
  match s.replies.get? procedure with
  | some (.result r) => .ok r
  | some (.error message) => .error (.remote message)
  | none => .ok arguments

end StandIn

/-- An exchange with its stand-ins. -/
structure Rehearsal where
  exchange : Exchange
  standIns : Table ConnectionId StandIn
  /-- The stand-ins by name. -/
  names : Table String ConnectionId
  nextConnection : ConnectionId
  /-- Which stand-in is reached at which address. -/
  targets : List (Endpoint × ConnectionId) := []
  /-- What holds back the making of connections. -/
  gate : Option Gate := none
  /-- The addresses tried, in order. -/
  attempts : List Endpoint := []
  tracker : Tracker := {}
  /-- Whether the discovery side is told which domains to forget. -/
  caching : Bool
  /-- The domains that the discovery side was told to forget. -/
  forgotten : List String := []
  /-- The discovery events on their way to the follower. -/
  events : List DomainInfo := []
  /-- Whether further discovery events can be sent. -/
  sending : Bool := true
  /-- Whether the caller holds its handle. -/
  hasHandle : Bool := true
  /-- Whether the caller holds a handler besides. -/
  hasHandler : Bool := false
  /-- The tasks that are ready, the first first. -/
  turns : List Turn := []
  /-- The calls whose replies are still of interest. -/
  listening : List CallId := []
  /-- The attempts that have been seen, in the order of their appearance. -/
  seen : List SessionId := []
  /-- How many withdrawals have been seen. -/
  seenWithdrawn : Nat := 0
deriving DecidableEq, Repr

namespace Rehearsal

/-- How many discovery events can be on their way. -/
def eventCapacity : Nat := 16

/-- The name of the home connection. -/
def homeName : String := "local"

/-- Begins a rehearsal. A home connection that is `refusing` from the start provides nothing. -/
def start (home : String) (permits : Nat) (refusing caching : Bool) :
    Except Exchange.StartError Rehearsal := do
  let refusal := if refusing then
      some (.remote ("cannot register " ++ DomainInfo.routePattern home))
    else none
  let exchange ← Exchange.start home permits refusal
  .ok { exchange := (exchange.step .follow).getD exchange
        standIns := (∅ : Table ConnectionId StandIn).insert Exchange.homeConnection { refusing }
        names := (∅ : Table String ConnectionId).insert homeName Exchange.homeConnection
        nextConnection := Exchange.homeConnection + 1
        caching }

/-- The stand-in of a connection. -/
def standIn (r : Rehearsal) (c : ConnectionId) : StandIn := (r.standIns.get? c).getD {}

/-- Changes the stand-in of a connection. -/
def modifyStandIn (r : Rehearsal) (c : ConnectionId) (f : StandIn → StandIn) : Rehearsal :=
  { r with standIns := r.standIns.modify c f }

/-- Tasks become ready; one that is ready already stays where it is. -/
def wake (r : Rehearsal) (ts : List Turn) : Rehearsal :=
  { r with turns := ts.foldl (fun turns t => if t ∈ turns then turns else turns ++ [t]) r.turns }

end Rehearsal
end Switchboard
