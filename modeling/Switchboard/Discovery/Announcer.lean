import Switchboard.Discovery.Monitor
import Switchboard.Domain.Heartbeat

/-!
# Announcing a domain

In every cycle the announcer enumerates the local addresses and sends one heartbeat through each,
which names that address. An address whose heartbeat would be too long is passed over, and a send
that fails concerns no other.
-/

namespace Switchboard

/-- A heartbeat on its way: the interface it leaves through, and its bytes. -/
structure Transmission where
  interface : Ipv4
  datagram : List UInt8
deriving DecidableEq, Repr

/-- The announcer of a domain. -/
structure Announcer where
  /-- The domain without an address. -/
  template : DomainInfo
  /-- How many heartbeats have been sent; `Announcer.counter` is this number in 64 bits. -/
  sent : Nat := 0
deriving DecidableEq, Repr

/-- What a cycle did: what it tried to send, and which of that was sent. -/
structure Cycle where
  attempted : List Transmission
  delivered : List Transmission
deriving DecidableEq, Repr

/-- How many heartbeats a cycle has sent. -/
def Cycle.sent (c : Cycle) : Nat := c.delivered.length

namespace Announcer

/-- What the counter of heartbeats shows: it has 64 bits and would wrap around. -/
def counter (a : Announcer) : UInt64 := UInt64.ofNat a.sent

/-- The heartbeat that leaves through an interface, if it can be encoded. -/
def transmission? (a : Announcer) (interface : Ipv4) : Option Transmission :=
  match Heartbeat.encode (a.template.withAddress interface.render) with
  | .ok datagram => some ⟨interface, datagram⟩
  | .error _ => none

/-- One cycle. Sends through the interfaces of `failing` fail. -/
def cycle (a : Announcer) (e : Enumeration) (failing : List Ipv4) : Cycle × Announcer :=
  let attempted := e.addresses.filterMap a.transmission?
  let c : Cycle := ⟨attempted, attempted.filter (·.interface ∉ failing)⟩
  (c, { a with sent := a.sent + c.sent })

/-- Successive cycles, each with the total number of heartbeats sent by its end. -/
def cycles (a : Announcer) : List (Enumeration × List Ipv4) → List (Cycle × Nat)
  | [] => []
  | (e, failing) :: rest =>
    let (c, a) := a.cycle e failing
    (c, a.sent) :: a.cycles rest

/-- What is sent before a moment, with the times of the cycles: one at the start and one after
every period. -/
def timeline (a : Announcer) (period moment : Nat) (script : List Enumeration) :
    List (Nat × Transmission) :=
  (List.range (Monitor.ticksBefore period moment)).flatMap fun n =>
    (a.cycle (Monitor.scripted script n) []).1.delivered.map (n * period, ·)

end Announcer
end Switchboard
