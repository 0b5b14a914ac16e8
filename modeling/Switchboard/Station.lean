import Switchboard.Discovery.Listener
import Switchboard.Exchange.Step

/-!
# A listener and its exchange

A station is an exchange whose discovery side is a listener: the follower takes the listener's
events, and what the registry wants forgotten goes to the listener's tracker. Domains are heard of
in no other way.

* `Station.step` is one action of either side, or of what lies between them.
* `Station.awaited` lists the discoveries that the registry has not handled yet.
-/

namespace Switchboard

/-- A listener with the exchange that follows its events. The requests to forget that the listener
has not taken yet are those of the exchange. -/
structure Station where
  listener : Listener := {}
  exchange : Exchange
deriving DecidableEq, Repr

/-- What may happen to a station. -/
inductive StationAction
  /-- A datagram arrives. -/
  | receive (datagram : List UInt8)
  /-- The event that the listener holds is queued. -/
  | enqueue
  /-- The follower passes on the oldest event. -/
  | pass
  /-- The listener carries out the oldest request to forget. -/
  | forget
  /-- Something happens to the exchange alone. -/
  | within (action : ExchangeAction)

/-- Whether an action of the exchange has nothing to do with discovery. -/
def ExchangeAction.isInner : ExchangeAction → Bool
  | .discover _ | .follow | .event _ | .unfollow | .takeForget => false
  | _ => true

/-- The domain that a command says has been heard. -/
def Command.discovered? : Command → Option DomainInfo
  | .discovered info => some info
  | _ => none

namespace Station

/-- A station whose exchange has just started. -/
def start (buffer : Nat) (e : Exchange) : Station :=
  ⟨{ buffer }, (e.step .follow).getD e⟩

/-- An action of the listener. -/
def listen (s : Station) (a : ListenerAction) : Option Station :=
  (s.listener.step a).map fun (_, listener) => { s with listener }

/-- The follower passes on the oldest event, if it can take one. -/
def pass (s : Station) : Option Station :=
  match s.listener.step .take with
  | some (some info, listener) =>
    (s.exchange.step (.event info)).map fun exchange => { listener, exchange }
  | _ => none

/-- The listener carries out the oldest request to forget, if it is ready. -/
def forget (s : Station) : Option Station :=
  match s.exchange.forgets with
  | [] => none
  | name :: _ =>
    match (s.listener.step (.request name)).bind fun (_, listener) => listener.step .forget,
        s.exchange.step .takeForget with
    | some (_, listener), some exchange => some { listener, exchange }
    | _, _ => none

/-- One action, if it is possible. -/
def step (s : Station) : StationAction → Option Station
  | .receive datagram => s.listen (.receive datagram)
  | .enqueue => s.listen .enqueue
  | .pass => s.pass
  | .forget => s.forget
  | .within a =>
    if a.isInner then (s.exchange.step a).map fun exchange => { s with exchange } else none

/-- What may become of a station. -/
inductive Reaches (s : Station) : Station → Prop
  | refl : Reaches s s
  | step {m n : Station} (a : StationAction) : Reaches s m → m.step a = some n → Reaches s n

/-- The discoveries that the registry has not handled yet, the latest first. -/
def awaited (s : Station) : List DomainInfo :=
  s.listener.blocked.toList ++ s.listener.events.reverse
    ++ (s.exchange.queue.filterMap Command.discovered?).reverse

/-- How many discoveries of a domain have not been handled yet. -/
def discoveries (s : Station) (name : String) : Nat :=
  s.awaited.countP fun info => info.key = name

/-- How many requests to forget a domain have not been carried out yet. -/
def requests (s : Station) (name : String) : Nat := s.exchange.forgets.count name

/-- Whether the listener knows a domain. -/
def knows (s : Station) (name : String) : Bool := s.listener.tracker.knows name

/-- Whether a domain has a session. -/
def hasSession (s : Station) (name : String) : Bool := s.exchange.registry.table.contains name

end Station
end Switchboard
