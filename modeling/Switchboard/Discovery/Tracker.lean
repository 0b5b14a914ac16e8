import Switchboard.Domain.Heartbeat
import Switchboard.Store.Table

/-!
# Known domains

The tracker remembers which domains have been heard. A heartbeat of a domain that is not known
raises an event, one of a known domain only refreshes what is stored, and a domain that has been
forgotten is new again.
-/

namespace Switchboard

/-- The domains heard, by name, each with its latest heartbeat. -/
structure Tracker where
  known : Table String DomainInfo := ∅
deriving DecidableEq, Repr

namespace Tracker

/-- Stores a heartbeat; it is an event if its domain was not known. -/
def observe (t : Tracker) (info : DomainInfo) : Option DomainInfo × Tracker :=
  (if t.known.contains info.key then none else some info, ⟨t.known.insert info.key info⟩)

/-- Takes a datagram of at most `limit` bytes. -/
def receive (t : Tracker) (datagram : List UInt8) (limit : Nat) :
    Except Heartbeat.Error (Option DomainInfo) × Tracker :=
  if limit < datagram.length then (.error (.oversized datagram.length limit), t)
  else
    match Heartbeat.decode datagram with
    | .error e => (.error e, t)
    | .ok info =>
      let (event, t) := t.observe info
      (.ok event, t)

/-- Forgets a domain and tells whether it was known. -/
def forget (t : Tracker) (name : String) : Bool × Tracker :=
  (t.known.contains name, ⟨t.known.erase name⟩)

/-- Whether a domain is known. -/
def knows (t : Tracker) (name : String) : Bool := t.known.contains name

/-- The stored heartbeats, by name. -/
def listing (t : Tracker) : List DomainInfo := t.known.values

end Tracker
end Switchboard
