import Switchboard.Session.Handshake
import Switchboard.Session.Step

/-!
# Scripted sessions

A scripted session has a router that sends what it is told to and reads all that it is sent, and
handlers whose behaviour is fixed in advance. After each event the session settles: everything that
can happen without the router does.
-/

namespace Switchboard

/-- What a handler does with its invocations. -/
inductive HandlerBehaviour
  /-- It answers with the arguments. -/
  | echo
  | error (message : String)
  /-- It gives them up. -/
  | drop
  /-- It keeps them until it is told what to do. -/
  | hold
deriving DecidableEq, Repr

/-- A session with its script's router and handlers. -/
structure ScriptedSession where
  session : Session := {}
  inbound : Inbound := {}
  /-- The behaviour of every handler so far. -/
  behaviours : List HandlerBehaviour := []
  /-- The invocations that were kept, in order. -/
  held : List Nat := []
  /-- How many frames, invocations and finished requests have been reported. -/
  seenFrames : Nat := 0
  seenInvocations : Nat := 0
  reported : List Nat := []
  /-- Whether the client has given the connection up. -/
  dropped : Bool := false
deriving DecidableEq, Repr

/-- What a step of the script lets see. -/
structure SessionScene where
  /-- The frames that the router has received; none once the session is lost. -/
  frames : List Frame
  /-- The requests that have finished, by number. -/
  finished : List (Nat × RequestOutcome)
  waiting : List Nat
  invocations : List Invocation
  lost : Bool
deriving DecidableEq, Repr

namespace ScriptedSession

/-- Performs actions on the session. -/
def act (s : ScriptedSession) (actions : List SessionAction) : ScriptedSession :=
  { s with session := s.session.run actions }

/-- The handler of an invocation does what it does. -/
def handle (s : ScriptedSession) (i : Nat) : ScriptedSession :=
  match s.session.given[i]? with
  | none => s
  | some g =>
    match s.behaviours[g.handler]? with
    | some .echo => s.act [.complete i (.result ⟨g.invocation.args, g.invocation.kwargs⟩)]
    | some (.error message) => s.act [.complete i (.error message)]
    | some .drop => s.act [.drop i]
    | some .hold => { s with held := s.held ++ [i] }
    | none => s

/-- Reads up to `n` lines. The end of the stream is the end of the session. -/
def readLines : Nat → ScriptedSession → ScriptedSession
  | 0, s => s
  | n + 1, s =>
    if s.session.reader ≠ .working then s
    else
      match s.inbound.next? with
      | none => s
      | some (event, inbound) =>
        let before := s.session.given.length
        let s := { s with inbound }.act [.read event, .announce .reader, .giveUp .reader]
        readLines n (if before < s.session.given.length then s.handle before else s)

/-- The actions by which requests and answers get into the queue. -/
def sendings (s : Session) : List SessionAction :=
  (s.requests.keys.flatMap fun n => [.check n, .enqueue n])
    ++ (List.range s.given.length).map .answer

/-- Fills the queue and empties it, up to `n` times. -/
def exchangeFrames : Nat → ScriptedSession → ScriptedSession
  | 0, s => s
  | n + 1, s =>
    let s := s.act (sendings s.session)
    exchangeFrames n (s.act (List.replicate s.session.outbound.length .write))

/-- Everything that can happen without the router happens. -/
def settle (s : ScriptedSession) : ScriptedSession :=
  if s.dropped then s
  else
    let s := readLines (s.inbound.bytes.length + 1) s
    let rounds := (s.session.requests.size + s.session.given.length) / Session.capacity + 2
    let s := exchangeFrames rounds s
    s.act (s.session.requests.keys.map .collect)

/-! ## Events of the script -/

/-- A request begins. -/
def request (s : ScriptedSession) (demand : Demand) : ScriptedSession :=
  if s.dropped then s else s.act [.begin demand]

/-- A handler of the given behaviour is provided. -/
def provide (s : ScriptedSession) (pattern : String) (mode : MatchMode)
    (behaviour : HandlerBehaviour) : ScriptedSession :=
  { s with behaviours := s.behaviours ++ [behaviour] }.request
    (.provide pattern mode s.behaviours.length)

/-- The router sends bytes. -/
def send (s : ScriptedSession) (bytes : List UInt8) : ScriptedSession :=
  { s with inbound := s.inbound.feed bytes }

/-- The router ends its stream. -/
def close (s : ScriptedSession) : ScriptedSession := { s with inbound := s.inbound.close }

/-- A kept invocation is answered, or given up without a reply. -/
def answer (s : ScriptedSession) (index : Nat) (reply : Option Reply) : ScriptedSession :=
  match s.held[index]? with
  | none => s
  | some i => s.act [reply.elim (.drop i) (.complete i)]

/-- The client gives the connection up, and with it every request. -/
def dropConnection (s : ScriptedSession) : ScriptedSession := { s with dropped := true }

/-- The outcome of a request that has finished. -/
def outcome? (s : ScriptedSession) (n : Nat) : Option RequestOutcome :=
  match s.session.requests.get? n with
  | some ⟨_, .done outcome, _⟩ => some outcome
  | _ => none

/-- Lets the session settle and looks at it. -/
def look (s : ScriptedSession) : SessionScene × ScriptedSession :=
  let s := s.settle
  let unreported := s.session.requests.keys.filter (· ∉ s.reported)
  let finished := if s.dropped then [] else
    unreported.filterMap fun n => (s.outcome? n).map (n, ·)
  let written := s.session.written
  ({ frames := if s.session.lost || s.dropped then [] else written.drop s.seenFrames
     finished
     waiting := if s.dropped then [] else unreported.filter fun n => (s.outcome? n).isNone
     invocations := (s.session.given.drop s.seenInvocations).map (·.invocation)
     lost := s.session.lost },
   { s with
     seenFrames := written.length
     seenInvocations := s.session.given.length
     reported := s.reported ++ finished.map Prod.fst })

end ScriptedSession
end Switchboard
