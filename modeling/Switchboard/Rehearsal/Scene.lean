import Switchboard.Rehearsal.Direction

/-!
# Scenes

A scene is what can be seen of a rehearsal once every task has come to rest: the sessions as the
handle reports them, what the home connection provides, and what has happened since the scene
before.
-/

namespace Switchboard

/-- What the handle says of a session. -/
structure SessionView where
  domain : String
  entry : Entry
  /-- The place of the session's attempt in the order of first appearance. -/
  number : Nat
deriving DecidableEq, Repr

/-- What can be seen of a rehearsal. -/
structure Scene where
  /-- The sessions, or why there are none to see. -/
  sessions : Except Rehearsal.Outcome (List SessionView)
  provided : List String
  withdrawn : List RegistrationId
  attempts : List Endpoint
  forgotten : List String
  /-- The calls that the stand-ins have seen, by name. -/
  calls : List (String × SeenCall)
  replies : List (CallId × ReplySlot)
  /-- The calls without a reply. -/
  pending : List CallId
  /-- The domains that the tracker knows. -/
  tracked : List String

namespace Rehearsal

/-- Asks for the sessions through the handle, and numbers those that are new. -/
def survey (r : Rehearsal) : Except Outcome (List SessionView) × Rehearsal :=
  if !r.hasHandle then (.error .noHandle, r)
  else
    let query := r.exchange.nextQuery
    let r := (r.act .ask).settle
    match r.exchange.queries.get? query with
    | some (.answered listing) =>
      let ids := listing.map fun (_, entry) => entry.id
      let seen := r.seen ++ ids.filter (· ∉ r.seen)
      (.ok (listing.map fun (domain, entry) => ⟨domain, entry, seen.idxOf entry.id⟩),
        { r with seen })
    | _ => (.error .closed, r)

/-- The calls that the stand-ins have seen since they were last asked for, by name. -/
def seenCalls (r : Rehearsal) : List (String × SeenCall) :=
  r.names.entries.flatMap fun (name, c) => (r.standIn c).calls.map (name, ·)

/-- Looks at a rehearsal that has come to rest. -/
def look (r : Rehearsal) : Scene × Rehearsal :=
  let (sessions, r) := r.survey
  let withdrawn := r.exchange.provider.withdrawn
  let pending := r.listening.filter fun call => (r.exchange.slot call).isWaiting
  ({ sessions
     provided := r.exchange.provider.patterns
     withdrawn := (withdrawn.drop r.seenWithdrawn).mergeSort (fun a b => a ≤ b)
     attempts := r.attempts
     forgotten := r.forgotten.mergeSort (fun a b => a ≤ b)
     calls := r.seenCalls
     replies := (r.listening.filter (· ∉ pending)).map fun call => (call, r.exchange.slot call)
     pending
     tracked := r.tracker.known.keys },
   { r with
     attempts := []
     forgotten := []
     seenWithdrawn := withdrawn.length
     listening := pending
     standIns := r.names.values.foldl
       (fun t c => t.modify c fun s => { s with calls := [] }) r.standIns })

end Rehearsal
end Switchboard
