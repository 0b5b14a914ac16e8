import Switchboard.Session.Basic
import Switchboard.Session.Lines

/-!
# Steps of a session

Everything that happens in a session is one of the actions below, each indivisible, and they may
follow each other in any order: requests take their steps, the reader takes a line, handlers answer,
the writer writes, and either loop may end.

* `Session.dispatch` is what a frame from the router does.
* `Session.step` is one action, where it is possible.
* `Session.Reaches` relates a session to all that may become of it.
-/

namespace Switchboard

/-- What may happen in a session. -/
inductive SessionAction
  /-- A request begins. -/
  | begin (demand : Demand)
  /-- A request looks whether the session is lost. -/
  | check (request : Nat)
  /-- The frame of a request joins the queue. -/
  | enqueue (request : Nat)
  /-- A request takes its reply. -/
  | collect (request : Nat)
  /-- The reader takes what the stream delivers. -/
  | read (event : LineEvent)
  /-- A handler is done with an invocation. -/
  | complete (invocation : Nat) (reply : Reply)
  /-- A handler gives an invocation up. -/
  | drop (invocation : Nat)
  /-- The answer to an invocation joins the queue. -/
  | answer (invocation : Nat)
  /-- The writer writes the next frame. -/
  | write
  /-- A write fails, and the writer ends. -/
  | failWrite
  /-- A loop that has ended announces the loss. -/
  | announce (loop : SessionLoop)
  /-- A loop gives up the waiting requests. -/
  | giveUp (loop : SessionLoop)
deriving DecidableEq, Repr

namespace Session

/-! ## Requests -/

/-- No reply can reach the request that goes by a number any more, and it learns so. -/
def forsake (s : Session) (request : UInt64) : Session :=
  match s.pending.get? request with
  | none => s
  | some w =>
    { s.modifyRequest w.request fun r => { r with reply := .never } with
      pending := s.pending.erase request }

/-- A request begins: replies can reach it from now on, and a registration that is to be withdrawn
has no handler any more. Should an older request still go by its number, replies cannot reach that
one any more. -/
def begin (s : Session) (demand : Demand) : Session :=
  let s := s.forsake (requestId s.count)
  { s with
    count := s.count + 1
    requests := s.requests.insert s.count { demand }
    pending := s.pending.insert (requestId s.count) ⟨s.count, demand.handler?⟩
    handlers :=
      match demand with
      | .unprovide registration => s.handlers.erase registration
      | _ => s.handlers }

/-- A request fails because the session is lost. -/
def failRequest (s : Session) (n : Nat) : Session :=
  (s.forsake (requestId n)).advance n (.done (.failed .disconnected))

/-- A request looks whether the session is lost: one that was entered after the waiting requests
were given up would wait for ever. -/
def check (s : Session) (n : Nat) : Option Session :=
  match s.requests.get? n with
  | some ⟨_, .entered, _⟩ => some (if s.lost then s.failRequest n else s.advance n .sending)
  | _ => none

/-- The frame of a request joins the queue as soon as there is room. -/
def enqueue (s : Session) (n : Nat) : Option Session :=
  match s.requests.get? n with
  | some ⟨demand, .sending, _⟩ =>
    if s.isClosed then some (s.failRequest n)
    else if s.hasRoom then some ((s.push (demand.frame (requestId n))).advance n .waiting)
    else none
  | _ => none

/-- A request takes the frame that answers it, or learns that there will be none. -/
def collect (s : Session) (n : Nat) : Option Session :=
  match s.requests.get? n with
  | some ⟨demand, .waiting, .arrived frame⟩ =>
    some (s.advance n (.done (demand.kind.interpret frame)))
  | some ⟨_, .waiting, .never⟩ => some (s.advance n (.done (.failed .disconnected)))
  | _ => none

/-! ## Frames from the router -/

/-- A reply reaches the request that waits for it. A registration that it grants has its handler
before anything else is read. -/
def deliver (s : Session) (request : UInt64) (frame : Frame) : Session :=
  match s.pending.get? request with
  | none => s
  | some w =>
    { s.modifyRequest w.request fun r => { r with reply := .arrived frame } with
      pending := s.pending.erase request
      handlers :=
        match frame, w.handler with
        | .registered _ registration, some handler => s.handlers.insert registration handler
        | _, _ => s.handlers }

/-- What an invocation of a registration without a handler is answered. -/
def noHandler (request registration : UInt64) : Frame :=
  .error request ("no handler for registration " ++ toString registration.toNat)

/-- An invocation goes to the handler of its registration. If there is none that is answered at
once, unless the queue is full. -/
def invoke (s : Session) (request registration : UInt64) (i : Invocation) : Session :=
  match s.handlers.get? registration with
  | some handler =>
    { s with given := s.given ++ [{ request, registration, handler, invocation := i }] }
  | none =>
    if s.isClosed || !s.hasRoom then s else s.push (noHandler request registration)

/-- What a frame from the router does. Frames that a router has no business sending do nothing. -/
def dispatch (s : Session) (frame : Frame) : Session :=
  match frame.replyTo with
  | some request => s.deliver request frame
  | none =>
    match frame with
    | .invocation request registration procedure args kwargs =>
      s.invoke request registration ⟨procedure, args, kwargs⟩
    | _ => s

/-- The reader takes what the stream delivers. Lines without a frame are ignored; damage ends the
reader as the end of the stream does. -/
def read (s : Session) (event : LineEvent) : Option Session :=
  if s.reader ≠ .working then none
  else
    match event with
    | .line text => some ((frameOf? text).elim s s.dispatch)
    | .damaged | .ended => some { s with reader := .ended }

/-! ## Answers to invocations -/

/-- Changes an invocation. -/
def modifyGiven (s : Session) (i : Nat) (f : Given → Given) : Session :=
  { s with given := s.given.modify i f }

/-- The answer to an invocation joins the queue as soon as there is room; a queue that takes no
frames any more loses it. -/
def answer (s : Session) (i : Nat) : Option Session :=
  match s.given[i]? with
  | none => none
  | some g =>
    if g.told then none
    else
      match g.answer? with
      | none => none
      | some frame =>
        if s.isClosed then some (s.modifyGiven i fun g => { g with told := true })
        else if s.hasRoom then
          some ((s.push frame).modifyGiven i fun g => { g with told := true })
        else none

/-! ## Loops -/

/-- The stage of a loop. -/
def stage (s : Session) : SessionLoop → LoopStage
  | .reader => s.reader
  | .writer => s.writer

/-- Moves a loop to a stage. -/
def setStage (s : Session) (stage : LoopStage) : SessionLoop → Session
  | .reader => { s with reader := stage }
  | .writer => { s with writer := stage }

/-- The writer writes the next frame. -/
def write (s : Session) : Option Session :=
  match s.writer, s.outbound with
  | .working, frame :: rest => some { s with outbound := rest, written := s.written ++ [frame] }
  | _, _ => none

/-- A write fails: the frame is lost and the writer ends. -/
def failWrite (s : Session) : Option Session :=
  match s.writer, s.outbound with
  | .working, _ :: rest => some { s with outbound := rest, writer := .ended }
  | _, _ => none

/-- A loop that has ended announces the loss. -/
def announce (s : Session) (l : SessionLoop) : Option Session :=
  if s.stage l = .ended then some ({ s with lost := true }.setStage .announced l) else none

/-- Every waiting request is told that there will be no reply. -/
def cutReplies (s : Session) : Session :=
  s.pending.values.foldl (fun s w => s.modifyRequest w.request fun r => { r with reply := .never })
    s

/-- A loop that has announced the loss gives up the waiting requests. With the writer the queue
goes too. -/
def giveUp (s : Session) (l : SessionLoop) : Option Session :=
  if s.stage l ≠ .announced then none
  else
    let s := { s.cutReplies with pending := ∅ }.setStage .over l
    some (if l = .writer then { s with outbound := [] } else s)

/-! ## Actions -/

/-- One action, if it is possible. -/
def step (s : Session) : SessionAction → Option Session
  | .begin demand => some (s.begin demand)
  | .check n => s.check n
  | .enqueue n => s.enqueue n
  | .collect n => s.collect n
  | .read event => s.read event
  | .complete i reply =>
    if i < s.given.length then
      some (s.modifyGiven i fun g => { g with slot := g.slot.answer reply })
    else none
  | .drop i =>
    if i < s.given.length then
      some (s.modifyGiven i fun g => { g with slot := g.slot.abandon })
    else none
  | .answer i => s.answer i
  | .write => s.write
  | .failWrite => s.failWrite
  | .announce l => s.announce l
  | .giveUp l => s.giveUp l

/-- Performs actions one after the other, leaving out those that are not possible. -/
def run (s : Session) (actions : List SessionAction) : Session :=
  actions.foldl (fun s a => (s.step a).getD s) s

/-- What may become of a session. -/
inductive Reaches (s : Session) : Session → Prop
  | refl : Reaches s s
  | step {m n : Session} (a : SessionAction) : Reaches s m → m.step a = some n → Reaches s n

end Session
end Switchboard
