import Switchboard.Rehearsal.Basic

/-!
# Turns

A task that is ready takes its turn: it goes on until it has to wait or is over. `settle` gives
turns until no task is ready. Every turn is made of actions of the exchange.
-/

namespace Switchboard
namespace Rehearsal

/-! ## Acting on the exchange -/

/-- Performs an action of the exchange, if it is possible. Afterwards the registry is ready if it
has a command to handle, or if it can stop because none will come. -/
def act (r : Rehearsal) (a : ExchangeAction) : Rehearsal :=
  match r.exchange.step a with
  | none => r
  | some exchange =>
    let r := { r with exchange }
    if exchange.running && (!exchange.queue.isEmpty || !exchange.isHeld) then r.wake [.registry]
    else r

/-- The discovery side takes what it has been asked to forget. -/
def deliverForgets (r : Rehearsal) : Rehearsal :=
  let names := r.exchange.forgets
  let r := { r with exchange := names.foldl (fun e _ => (e.step .takeForget).getD e) r.exchange }
  if r.caching then
    { r with
      forgotten := r.forgotten ++ names
      tracker := names.foldl (fun t name => (t.forget name).2) r.tracker }
  else r

/-! ## The registry -/

/-- The task that carries out an effect, if it takes one. -/
def turn? : Effect → Option Turn
  | .connect _ id _ => some (.dial id)
  | .watch _ id _ => some (.watch id)
  | .withdraw registration => some (.withdraw registration)
  | .forward call .. => some (.forward call)
  | _ => none

/-- The tasks that the registry's next command gives rise to. -/
def upcoming (e : Exchange) : List Turn :=
  match e.queue with
  | [] => []
  | c :: _ => (e.registry.react e.nextSession c).2.filterMap turn?

/-- How many commands the registry handles in one turn. -/
def budget : Nat := 128

/-- The registry handles up to `n` commands. -/
def serve : Nat → Rehearsal → Rehearsal
  | 0, r => r.wake [.registry]
  | n + 1, r =>
    match r.exchange.serve with
    | none => r
    | some exchange =>
      let r := { r.wake (upcoming r.exchange) with exchange }
      serve n r.deliverForgets

/-- The registry's turn. It may make room for the follower of discovery events. -/
def serveTurn (r : Rehearsal) : Rehearsal :=
  let r := serve budget r
  if r.events.isEmpty then r else r.wake [.follower]

/-! ## Other tasks -/

/-- An attempt goes on when it is not held back (any more). -/
def dialOn (r : Rehearsal) (id : SessionId) : Rehearsal :=
  match r.exchange.dials.get? id with
  | none => r
  | some d =>
    let r := r.act (.connect id (r.targets.lookup d.address))
    let r := r.act (.provide id (!(r.standIn Exchange.homeConnection).refusing))
    r.act (.conclude id)

/-- An attempt begins. -/
def dial (r : Rehearsal) (id : SessionId) : Rehearsal :=
  match r.exchange.dials.get? id with
  | none => r
  | some d =>
    let r := { r.act (.dial id) with attempts := r.attempts ++ [d.address] }
    let (passes, gate) := arriveAt r.gate (.dialOn id)
    let r := { r with gate }
    if passes then r.dialOn id else r

/-- A forwarded call goes on when it is not held back (any more). -/
def forwardOn (r : Rehearsal) (call : CallId) : Rehearsal :=
  match r.exchange.forwards.get? call with
  | none => r
  | some f =>
    let outcome := (r.standIn f.connection).outcome f.procedure f.arguments
    (r.act (.settle call outcome)).act (.answer call)

/-- A forwarded call is made. A lost connection does not see it. -/
def forward (r : Rehearsal) (call : CallId) : Rehearsal :=
  match r.exchange.forwards.get? call with
  | none => r
  | some f =>
    let r := r.act (.begin call)
    if f.connection ∈ r.exchange.lost then
      (r.act (.settle call (.error .disconnected))).act (.answer call)
    else
      let (passes, gate) := arriveAt (r.standIn f.connection).gate (.forwardOn call)
      let r := r.modifyStandIn f.connection fun s =>
        { s with calls := s.calls ++ [⟨f.procedure, f.arguments⟩], gate }
      if passes then r.forwardOn call else r

/-- The follower of discovery events passes on up to `n` of them. -/
def followEvents : Nat → Rehearsal → Rehearsal
  | 0, r => r
  | n + 1, r =>
    match r.events with
    | [] => if r.sending then r else r.act .unfollow
    | info :: rest =>
      match r.exchange.step (.event info) with
      | none => r
      | some _ =>
        let r := { r with events := rest }.act (.event info)
        if r.exchange.following then followEvents n r else { r with events := [] }

/-! ## Settling -/

/-- A task takes its turn. -/
def take (r : Rehearsal) : Turn → Rehearsal
  | .registry => r.serveTurn
  | .follower => followEvents (r.events.length + 1) r
  | .dial id => r.dial id
  | .dialOn id => r.dialOn id
  | .watch id => r.act (.notice id)
  | .withdraw registration => r.act (.withdraw registration)
  | .forward call => r.forward call
  | .forwardOn call => r.forwardOn call

/-- Gives up to `n` turns. -/
def takeTurns : Nat → Rehearsal → Rehearsal
  | 0, r => r
  | n + 1, r =>
    match r.turns with
    | [] => r
    | t :: turns => takeTurns n ({ r with turns }.take t)

/-- A bound on the turns there can be. A command leads at most to an attempt, its watch and its
withdrawal, each with a command to the registry, which are fewer than eight turns. -/
def effort (r : Rehearsal) : Nat :=
  let e := r.exchange
  8 * (r.turns.length + r.events.length + e.queue.length + e.dials.size + e.watches.size
    + e.withdrawals.length + e.forwards.size + 1)

/-- Gives turns until no task is ready. -/
def settle (r : Rehearsal) : Rehearsal := takeTurns r.effort r

end Rehearsal
end Switchboard
