import Switchboard.Rehearsal.Turn

/-!
# Directions

What is done to a rehearsal from outside: stand-ins are set up, held back, released and lost;
domains are reported, calls come in, and handles are given up. No task takes its turn meanwhile,
except where the queue has to make room first.
-/

namespace Switchboard
namespace Rehearsal

/-! ## Stand-ins -/

/-- A new stand-in of the given name is reached at the address from now on. -/
def serveAt (r : Rehearsal) (name : String) (address : Endpoint) : Rehearsal :=
  { r with
    standIns := r.standIns.insert r.nextConnection {}
    names := r.names.insert name r.nextConnection
    targets := (address, r.nextConnection) :: r.targets.filter (·.1 ≠ address)
    nextConnection := r.nextConnection + 1 }

/-- Nothing is reached at the address from now on. -/
def unserve (r : Rehearsal) (address : Endpoint) : Rehearsal :=
  { r with targets := r.targets.filter (·.1 ≠ address) }

/-- Changes the stand-in of a name, if there is one. -/
def direct (r : Rehearsal) (name : String) (f : StandIn → StandIn) : Rehearsal :=
  match r.names.get? name with
  | none => r
  | some c => r.modifyStandIn c f

/-- Fixes the reply to a procedure. -/
def respond (r : Rehearsal) (name procedure : String) (reply : Reply) : Rehearsal :=
  r.direct name fun s => { s with replies := s.replies.insert procedure reply }

/-- A stand-in refuses to provide patterns, or no longer refuses. -/
def refuse (r : Rehearsal) (name : String) (refusing : Bool) : Rehearsal :=
  r.direct name fun s => { s with refusing }

/-- Holds back the calls that a stand-in sees from now on. -/
def holdCalls (r : Rehearsal) (name : String) : Rehearsal :=
  r.direct name fun s => { s with gate := some {} }

/-- Lets `n` calls through. -/
def releaseCalls (r : Rehearsal) (name : String) (n : Nat) : Rehearsal :=
  match (r.names.get? name).bind fun c => (r.standIn c).gate with
  | none => r
  | some g =>
    let (passing, g) := g.letThrough n
    (r.direct name fun s => { s with gate := some g }).wake passing

/-- Holds back the connections that are tried from now on. -/
def holdConnects (r : Rehearsal) : Rehearsal := { r with gate := some {} }

/-- Lets `n` connections through. -/
def releaseConnects (r : Rehearsal) (n : Nat) : Rehearsal :=
  match r.gate with
  | none => r
  | some g =>
    let (passing, g) := g.letThrough n
    { r with gate := some g }.wake passing

/-- A stand-in is lost, and the watches over it become ready. -/
def disconnect (r : Rehearsal) (name : String) : Rehearsal :=
  match r.names.get? name with
  | none => r
  | some c =>
    let watching := r.exchange.watches.entries.filter (·.2.connection = c)
    (r.act (.lose c)).wake (watching.map fun (id, _) => .watch id)

/-- The number under which a stand-in provides a pattern. -/
def registration? (r : Rehearsal) (name pattern : String) : Option RegistrationId :=
  if r.names.get? name = some Exchange.homeConnection then
    r.exchange.provider.registration? pattern
  else none

/-! ## Discovery -/

/-- A datagram arrives. Its event, if it raises one, goes to the follower if there is room; the
outcome tells whether it did. -/
def hear (r : Rehearsal) (datagram : List UInt8) (limit : Nat) :
    Except Heartbeat.Error (Option (DomainInfo × Bool)) × Rehearsal :=
  let (outcome, tracker) := r.tracker.receive datagram limit
  let r := { r with tracker }
  match outcome with
  | .error e => (.error e, r)
  | .ok none => (.ok none, r)
  | .ok (some info) =>
    if r.sending && r.exchange.following && r.events.length < eventCapacity then
      (.ok (some (info, true)), { r with events := r.events ++ [info] }.wake [.follower])
    else (.ok (some (info, false)), r)

/-! ## Through the handle -/

/-- How a request through the handle ends. -/
inductive Outcome
  | done
  /-- The registry has stopped. -/
  | closed
  /-- The handle has been given up. -/
  | noHandle
deriving DecidableEq, Repr

/-- Sends a command through the handle. It waits until the queue has room. -/
def request (r : Rehearsal) (a : ExchangeAction) : Outcome × Rehearsal :=
  if !r.hasHandle then (.noHandle, r)
  else
    let r := if r.exchange.isFull then r.settle else r
    if r.exchange.running then (.done, r.act a) else (.closed, r)

/-- Reports a domain. -/
def discover (r : Rehearsal) (info : DomainInfo) : Outcome × Rehearsal :=
  r.request (.discover info)

/-- Tells the registry to stop. -/
def shutdown (r : Rehearsal) : Outcome × Rehearsal := r.request .shutdown

/-- A call comes in by the given action; its reply is of interest. -/
def place (r : Rehearsal) (a : ExchangeAction) : CallId × Rehearsal :=
  let call := r.exchange.nextCall
  (call, { r with listening := r.listening ++ [call] }.act a)

/-- A call comes in `times` times; the outcome is the last one. -/
def placeTimes (r : Rehearsal) (a : ExchangeAction) : Nat → Option CallId × Rehearsal
  | 0 => (none, r)
  | n + 1 =>
    let (call, r) := r.place a
    if n = 0 then (some call, r) else r.placeTimes a n

/-- A call arrives at a stand-in. It comes in if one of the patterns that are provided there
matches; only the home connection provides any. -/
def invoke (r : Rehearsal) (name procedure : String) (i : Invocation) :
    Option CallId × Rehearsal :=
  if r.names.get? name = some Exchange.homeConnection
      ∧ r.exchange.provider.serves procedure then
    let (call, r) := r.place (.invoke i)
    (some call, r)
  else (none, r)

/-- A caller stops waiting; its call is of no further interest. -/
def leave (r : Rehearsal) (call : CallId) : Rehearsal :=
  { r with listening := r.listening.filter (· ≠ call) }.act (.leave call)

/-! ## Handles -/

/-- The handler is given up. -/
def dropHandler (r : Rehearsal) : Rehearsal :=
  if r.hasHandler then { r with hasHandler := false }.act .release else r

/-- A handler is taken from the handle, in place of the one taken before, which is given up also
when there is no handle to take one from. -/
def takeHandler (r : Rehearsal) : Rehearsal :=
  if !r.hasHandle then r.dropHandler
  else if r.hasHandler then r
  else { r with hasHandler := true }.act .share

/-- The handle is given up, and no further discovery events come. -/
def dropHandle (r : Rehearsal) : Rehearsal :=
  let r := { r with sending := false }.wake [.follower]
  if r.hasHandle then { r with hasHandle := false }.act .release else r

end Rehearsal
end Switchboard
