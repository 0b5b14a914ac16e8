import Switchboard.Net.Ip

/-!
# Local addresses that appear

The monitor enumerates the local addresses at every tick and reports those that were not there the
tick before. An enumeration that fails counts as an empty one, so that whatever comes back after a
failure is reported again. Removals are not reported.

* `Monitor.tick` is one tick.
* `Watch` runs the monitor into a bounded queue: all reports of a tick are queued before the next
  enumeration, however slowly the queue is emptied.
-/

namespace Switchboard

/-- A set of addresses: ascending, none twice. -/
abbrev AddressSet := List Ipv4

namespace AddressSet

/-- The set with one address more. -/
def insert (a : Ipv4) : AddressSet → AddressSet
  | [] => [a]
  | b :: rest =>
    if a.toNat < b.toNat then a :: b :: rest
    else if a.toNat = b.toNat then b :: rest
    else b :: insert a rest

/-- The set of the listed addresses. -/
def ofList (addresses : List Ipv4) : AddressSet := addresses.foldr insert []

end AddressSet

/-- The outcome of an enumeration: the addresses in any order, or nothing if it failed. -/
abbrev Enumeration := Option (List Ipv4)

/-- The addresses of an enumeration. -/
def Enumeration.addresses (e : Enumeration) : AddressSet := AddressSet.ofList (e.getD [])

/-- The monitor remembers the addresses of the tick before. -/
structure Monitor where
  previous : AddressSet := []
deriving DecidableEq, Repr

namespace Monitor

/-- The addresses that are new, ascending. -/
def tick (m : Monitor) (e : Enumeration) : List Ipv4 × Monitor :=
  (e.addresses.filter (· ∉ m.previous), ⟨e.addresses⟩)

/-- The enumeration of tick `n` of a script whose last one repeats. -/
def scripted (script : List Enumeration) (n : Nat) : Enumeration :=
  (script[n]?.orElse fun _ => script.getLast?).getD none

/-- The reports of `count` ticks from tick `n` on, each with the number of its tick. -/
def reports (script : List Enumeration) : (count n : Nat) → Monitor → List (Nat × Ipv4)
  | 0, _, _ => []
  | count + 1, n, m =>
    let (appeared, m) := m.tick (scripted script n)
    appeared.map (n, ·) ++ reports script count (n + 1) m

/-- Whether a timer can have a period; the monitor of a timer that cannot ends before its first
tick. -/
def canTick (period : Nat) : Bool := 0 < period

/-- How many ticks there are before a moment: one at the start and one after every period. -/
def ticksBefore (period moment : Nat) : Nat :=
  if canTick period then (moment + period - 1) / period else 0

/-- What a receiver that never lags gets before a moment, with the times of the reports. -/
def timeline (period moment : Nat) (script : List Enumeration) : List (Nat × Ipv4) :=
  (reports script (ticksBefore period moment) 0 {}).map fun (n, a) => (n * period, a)

end Monitor

/-! ## Running into a queue -/

/-- A monitor at work: the reports of the last tick that wait for room, and the queue. -/
structure Watch where
  monitor : Monitor := {}
  /-- How many ticks there have been. -/
  ticks : Nat := 0
  waiting : List Ipv4 := []
  queue : List Ipv4 := []
deriving DecidableEq, Repr

/-- What may happen to a monitor at work. -/
inductive WatchAction
  /-- The next tick is due. -/
  | tick
  /-- A waiting report is queued. -/
  | enqueue
  /-- The receiver takes a report. -/
  | take
deriving DecidableEq, Repr

namespace Watch

/-- How many reports the queue holds. -/
def capacity : Nat := 32

/-- One action on the script of enumerations, if it is possible, with the report it delivers. -/
def step (script : List Enumeration) (w : Watch) : WatchAction → Option (Option Ipv4 × Watch)
  | .tick =>
    if w.waiting ≠ [] then none
    else
      let (appeared, monitor) := w.monitor.tick (Monitor.scripted script w.ticks)
      some (none, { w with monitor, ticks := w.ticks + 1, waiting := appeared })
  | .enqueue =>
    match w.waiting with
    | [] => none
    | a :: rest =>
      if w.queue.length < capacity then
        some (none, { w with waiting := rest, queue := w.queue ++ [a] })
      else none
  | .take =>
    match w.queue with
    | [] => none
    | a :: rest => some (some a, { w with queue := rest })

end Watch
end Switchboard
