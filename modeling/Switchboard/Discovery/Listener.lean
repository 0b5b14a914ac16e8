import Switchboard.Discovery.Tracker

/-!
# Listening for heartbeats

The listener feeds what it receives to its tracker and hands the events on through a bounded queue.
While an event finds the queue full the listener does nothing else; forget requests wait meanwhile.

* `Listener.limit` is the size of the longest datagram that is accepted; one byte more is read, to
  tell a datagram that just fits from one that was cut.
* `Listener.step` is one action of the listener or of the receiver of its events.
-/

namespace Switchboard

/-- A listener at work. -/
structure Listener where
  /-- The size of the receive buffer. -/
  buffer : Nat := Heartbeat.maxSize
  tracker : Tracker := {}
  /-- The event that waits for room in the queue. -/
  blocked : Option DomainInfo := none
  events : List DomainInfo := []
  /-- The domains to forget, in the order of the requests. -/
  forgets : List String := []
deriving DecidableEq, Repr

/-- What may happen to a listener. -/
inductive ListenerAction
  /-- A datagram arrives. -/
  | receive (datagram : List UInt8)
  /-- Someone asks for a domain to be forgotten. -/
  | request (name : String)
  /-- The oldest request is carried out. -/
  | forget
  /-- The waiting event is queued. -/
  | enqueue
  /-- The receiver takes an event. -/
  | take
deriving DecidableEq, Repr

namespace Listener

/-- How many events the queue holds. -/
def capacity : Nat := 64

/-- The size of the longest datagram accepted with a receive buffer of the given size. -/
def limit (buffer : Nat) : Nat := min buffer Heartbeat.maxSize

/-- What the socket hands over of a datagram. -/
def truncate (buffer : Nat) (datagram : List UInt8) : List UInt8 :=
  datagram.take (limit buffer + 1)

/-- Whether the listener can turn to its inputs. -/
def isReady (l : Listener) : Bool := l.blocked.isNone

/-- Receives a datagram; an event waits for room in the queue. -/
def receive (l : Listener) (datagram : List UInt8) : Listener :=
  let (outcome, tracker) := l.tracker.receive (truncate l.buffer datagram) (limit l.buffer)
  match outcome with
  | .ok event => { l with tracker, blocked := event }
  | .error _ => { l with tracker }

/-- One action, if it is possible, with the event it delivers. -/
def step (l : Listener) : ListenerAction → Option (Option DomainInfo × Listener)
  | .receive datagram => if l.isReady then some (none, l.receive datagram) else none
  | .request name => some (none, { l with forgets := l.forgets ++ [name] })
  | .forget =>
    match l.forgets with
    | [] => none
    | name :: rest =>
      if l.isReady then
        some (none, { l with tracker := (l.tracker.forget name).2, forgets := rest })
      else none
  | .enqueue =>
    match l.blocked with
    | none => none
    | some event =>
      if l.events.length < capacity then
        some (none, { l with blocked := none, events := l.events ++ [event] })
      else none
  | .take =>
    match l.events with
    | [] => none
    | event :: rest => some (some event, { l with events := rest })

/-- Performs actions one after the other, leaving out those that are not possible, and collects the
events they deliver. -/
def run (l : Listener) : List ListenerAction → List DomainInfo × Listener
  | [] => ([], l)
  | a :: rest =>
    match l.step a with
    | none => l.run rest
    | some (event, l) =>
      let (events, l) := l.run rest
      (event.toList ++ events, l)

/-- A datagram as a receiver that never lags sees it: it arrives and its event is taken. -/
def hear (datagram : List UInt8) : List ListenerAction := [.receive datagram, .enqueue, .take]

end Listener
end Switchboard
