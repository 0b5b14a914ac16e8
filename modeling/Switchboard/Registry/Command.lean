import Switchboard.Registry.Basic
import Switchboard.Route.Target

/-!
# Commands and effects

All that concerns the registry reaches it as a command, one at a time. It answers a command at once
by changing its table and by asking for effects, which others carry out; what comes of an effect
comes back as a command.

* `Registry.react` is the answer to one command.
* A domain whose session ends is forgotten on the discovery side, so that its next heartbeat begins
  a new session. There is no other retry.
-/

namespace Switchboard

/-- What the registry is told or asked. -/
inductive Command
  /-- A domain has been heard. -/
  | discovered (info : DomainInfo)
  /-- An attempt has ended, with a link if it was successful. -/
  | attempted (domain : String) (id : SessionId) (outcome : Option Link)
  /-- The connection of a session is lost. -/
  | lost (domain : String) (id : SessionId)
  /-- A call is to be forwarded. -/
  | route (call : CallId) (invocation : Invocation)
  /-- The sessions are asked for. -/
  | list (query : QueryId)
  /-- The registry has to stop. -/
  | stop
deriving DecidableEq, Repr

/-- What the registry asks for. -/
inductive Effect
  /-- Connect to the domain and provide its pattern on the home connection. -/
  | connect (domain : String) (id : SessionId) (address : Endpoint)
  /-- Break off the attempt. -/
  | abort (id : SessionId)
  /-- Tell when the connection is lost. -/
  | watch (domain : String) (id : SessionId) (connection : ConnectionId)
  /-- Withdraw a pattern from the home connection. -/
  | withdraw (registration : RegistrationId)
  /-- Forget the domain on the discovery side. -/
  | forget (domain : String)
  /-- Make the call on the connection and answer with its outcome. -/
  | forward (call : CallId) (connection : ConnectionId) (procedure : String)
      (arguments : CallResult)
  /-- Answer the call with the error. -/
  | refuse (call : CallId) (error : RouteError)
  /-- Answer the request for the sessions. -/
  | report (query : QueryId) (listing : List (String × Entry))
deriving DecidableEq, Repr

/-- What is asked for when a session ends. -/
def Entry.release : Entry → List Effect
  | .connecting id _ => [.abort id]
  | .home _ link | .connected _ _ link => [.withdraw link.registration]

namespace Registry

/-- Ends the session of a domain. -/
def remove (r : Registry) (domain : String) : Registry × List Effect :=
  match r.table.get? domain with
  | none => (r, [])
  | some entry =>
    ({ r with table := r.table.erase domain }, entry.release ++ [.forget domain])

/-- A domain has been heard. A known domain stays as it is, and one without a usable address is
forgotten at once. -/
def discover (r : Registry) (fresh : SessionId) (info : DomainInfo) : Registry × List Effect :=
  if r.table.contains info.key then (r, [])
  else
    match info.endpoint? with
    | none => (r, [.forget info.key])
    | some address =>
      ({ r with table := r.table.insert info.key (.connecting fresh address) },
        [.connect info.key fresh address])

/-- The pattern of an attempt that nobody waits for is withdrawn. -/
def discard : Option Link → List Effect
  | none => []
  | some link => [.withdraw link.registration]

/-- An attempt has ended. It counts only if it is the one under way for its domain. -/
def conclude (r : Registry) (domain : String) (id : SessionId) (outcome : Option Link) :
    Registry × List Effect :=
  match r.table.get? domain with
  | some (.connecting current address) =>
    if current ≠ id then (r, discard outcome)
    else
      match outcome with
      | none => r.remove domain
      | some link =>
        ({ r with table := r.table.insert domain (.connected id address link) },
          [.watch domain id link.connection])
  | _ => (r, discard outcome)

/-- A connection is lost. It counts only if it is that of the domain's present session. -/
def lose (r : Registry) (domain : String) (id : SessionId) : Registry × List Effect :=
  match r.table.get? domain with
  | none => (r, [])
  | some entry => if entry.id = id then r.remove domain else (r, [])

/-- A call is to be forwarded. The target is read first, then looked up, and then a permit is
taken. -/
def route (r : Registry) (call : CallId) (i : Invocation) : Registry × List Effect :=
  match parseTarget i.procedure with
  | .error e => (r, [.refuse call e])
  | .ok target =>
    match r.route? target.domain with
    | none => (r, [.refuse call .unknownDomain])
    | some link =>
      match r.permits with
      | 0 => (r, [.refuse call .busy])
      | permits + 1 =>
        ({ r with permits },
          [.forward call link.connection target.procedure ⟨i.args, i.kwargs⟩])

/-- The answer to a command. An attempt that begins goes by the name `fresh`. -/
def react (r : Registry) (fresh : SessionId) : Command → Registry × List Effect
  | .discovered info => r.discover fresh info
  | .attempted domain id outcome => r.conclude domain id outcome
  | .lost domain id => r.lose domain id
  | .route call invocation => r.route call invocation
  | .list query => (r, [.report query r.listing])
  | .stop => (r, [])

end Registry
end Switchboard
