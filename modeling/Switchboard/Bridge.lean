import Switchboard.Exchange.Step
import Switchboard.Session.Step

/-!
# An exchange over sessions

A bridge is an exchange whose connections are sessions. An invocation that the home session hands to
the exchange becomes a call; a call that is forwarded becomes a request on the session of its
connection; the outcome of the request becomes the answer to the call, and that the answer to the
invocation.

* `Bridge.step` is one action of the exchange, of a session, or of both together.
-/

namespace Switchboard

/-- An exchange with its sessions. -/
structure Bridge where
  exchange : Exchange
  /-- The sessions by connection. -/
  sessions : Table ConnectionId Session
  nextConnection : ConnectionId
  /-- The calls that invocations on the home session have become, by their place there. -/
  calls : Table Nat CallId := ∅
  /-- The requests that forwarded calls have become, by their number on their session. -/
  requests : Table CallId Nat := ∅
deriving DecidableEq, Repr

/-- What may happen to a bridge. -/
inductive BridgeAction
  /-- Something happens to the exchange alone. -/
  | within (action : ExchangeAction)
  /-- Something happens to a session alone. -/
  | session (connection : ConnectionId) (action : SessionAction)
  /-- The connection of an attempt is there, with a session of its own. -/
  | join (id : SessionId)
  /-- The home session takes what its stream delivers. -/
  | read (event : LineEvent)
  /-- The answer to a call goes back to its invocation. -/
  | reply (invocation : Nat)
  /-- A forwarded call is made on its session. -/
  | begin (call : CallId)
  /-- The outcome of a request goes back to its call. -/
  | settle (call : CallId)
  /-- The exchange is told that a session is lost. -/
  | lose (connection : ConnectionId)

namespace Bridge

/-- The handler by which the home session hands invocations to the exchange. -/
def handler : HandlerId := 0

/-- Whether an action of the exchange leaves the sessions alone. -/
def isInner (b : Bridge) : ExchangeAction → Bool
  | .invoke _ | .connect _ (some _) | .begin _ | .settle _ _ | .lose _ => false
  | .leave call => call ∉ b.calls.values
  | _ => true

/-- Whether an action of a session leaves the exchange alone. -/
def isOwn (b : Bridge) (c : ConnectionId) : SessionAction → Bool
  | .begin (.call _ _) => false
  | .read _ => c ≠ Exchange.homeConnection
  | .complete i _ | .drop i => c ≠ Exchange.homeConnection || (b.calls.get? i).isNone
  | _ => true

/-- A bridge whose exchange has just started. -/
def start (e : Exchange) : Bridge where
  exchange := e
  sessions := (∅ : Table ConnectionId Session).insert Exchange.homeConnection {}
  nextConnection := Exchange.homeConnection + 1

/-- An action of the exchange. -/
def exchangeStep (b : Bridge) (a : ExchangeAction) : Option Bridge :=
  (b.exchange.step a).map fun exchange => { b with exchange }

/-- An action of a session. -/
def sessionStep (b : Bridge) (c : ConnectionId) (a : SessionAction) : Option Bridge :=
  ((b.sessions.get? c).bind (·.step a)).map fun s => { b with sessions := b.sessions.insert c s }

/-- The connection of an attempt is there. -/
def join (b : Bridge) (id : SessionId) : Option Bridge :=
  (b.exchangeStep (.connect id (some b.nextConnection))).map fun b =>
    { b with
      sessions := b.sessions.insert b.nextConnection {}
      nextConnection := b.nextConnection + 1 }

/-- An invocation at a place on the home session becomes a call, if it is for the exchange. -/
def take (b : Bridge) (place : Nat) : Bridge :=
  match ((b.sessions.get? Exchange.homeConnection).bind (·.given[place]?)) with
  | none => b
  | some g =>
    if g.handler ≠ handler then b
    else
      { b with
        exchange := b.exchange.offer g.invocation
        calls := b.calls.insert place b.exchange.nextCall }

/-- The home session takes what its stream delivers. An invocation reaches its handler at once. -/
def read (b : Bridge) (event : LineEvent) : Option Bridge :=
  match b.sessions.get? Exchange.homeConnection with
  | none => none
  | some s =>
    (b.sessionStep Exchange.homeConnection (.read event)).map (·.take s.given.length)

/-- The answer to a call, or that there will be none, goes back to its invocation. -/
def reply (b : Bridge) (invocation : Nat) : Option Bridge :=
  match (b.calls.get? invocation).map b.exchange.slot with
  | none | some .waiting => none
  | some (.answered r) => b.sessionStep Exchange.homeConnection (.complete invocation r)
  | some .abandoned => b.sessionStep Exchange.homeConnection (.drop invocation)

/-- A forwarded call is made: it becomes the next request on the session of its connection. -/
def begin (b : Bridge) (call : CallId) : Option Bridge :=
  match b.exchange.forwards.get? call with
  | none => none
  | some f =>
    match b.sessions.get? f.connection, b.exchangeStep (.begin call) with
    | some s, some b =>
      (b.sessionStep f.connection (.begin (.call f.procedure f.arguments))).map fun b =>
        { b with requests := b.requests.insert call s.count }
    | _, _ => none

/-- What a finished request for a call returns. -/
def returned : RequestOutcome → Except SessionError CallResult
  | .granted (.result r) => .ok r
  | .granted _ => .ok {}
  | .failed e => .error e

/-- The outcome of the request that a forwarded call has become. -/
def outcome? (b : Bridge) (call : CallId) : Option RequestOutcome :=
  match b.exchange.forwards.get? call, b.requests.get? call with
  | some f, some n =>
    match (b.sessions.get? f.connection).bind (·.requests.get? n) with
    | some ⟨_, .done outcome, _⟩ => some outcome
    | _ => none
  | _, _ => none

/-- The outcome of a request goes back to its call. -/
def settle (b : Bridge) (call : CallId) : Option Bridge :=
  (b.outcome? call).bind fun outcome => b.exchangeStep (.settle call (returned outcome))

/-- The exchange is told that a session is lost. -/
def lose (b : Bridge) (c : ConnectionId) : Option Bridge :=
  match b.sessions.get? c with
  | some s => if s.lost then b.exchangeStep (.lose c) else none
  | none => none

/-- One action, if it is possible. -/
def step (b : Bridge) : BridgeAction → Option Bridge
  | .within a => if b.isInner a then b.exchangeStep a else none
  | .session c a => if b.isOwn c a then b.sessionStep c a else none
  | .join id => b.join id
  | .read event => b.read event
  | .reply i => b.reply i
  | .begin call => b.begin call
  | .settle call => b.settle call
  | .lose c => b.lose c

/-- What may become of a bridge. -/
inductive Reaches (b : Bridge) : Bridge → Prop
  | refl : Reaches b b
  | step {m n : Bridge} (a : BridgeAction) : Reaches b m → m.step a = some n → Reaches b n

end Bridge
end Switchboard
