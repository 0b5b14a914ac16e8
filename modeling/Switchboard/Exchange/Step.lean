import Switchboard.Exchange.Basic

/-!
# Steps of an exchange

Everything that happens to an exchange is one of the actions below, each indivisible, and they may
follow each other in any order: the registry handles its next command, a task takes its next step,
or someone outside calls, asks, or answers. What connections answer is not decided here: each
action carries it.

* `Exchange.step` is one action, where it is possible.
* `Exchange.Reaches` relates an exchange to all that may become of it.
-/

namespace Switchboard

/-- What may happen to an exchange. -/
inductive ExchangeAction
  /-- A domain is reported through a handle. -/
  | discover (info : DomainInfo)
  /-- A call comes in through a handle. -/
  | call (invocation : Invocation)
  /-- A call comes in through a registration on the home connection. -/
  | invoke (invocation : Invocation)
  /-- The sessions are asked for through a handle. -/
  | ask
  /-- The registry is told to stop, through a handle. -/
  | shutdown
  /-- A handle is copied. -/
  | share
  /-- A handle is given up. -/
  | release
  /-- A caller stops waiting. -/
  | leave (call : CallId)
  /-- The registry handles its next command, or stops because none can come. -/
  | serve
  /-- An attempt begins to make its connection. -/
  | dial (id : SessionId)
  /-- The connection is there, or could not be made. -/
  | connect (id : SessionId) (connection : Option ConnectionId)
  /-- The pattern is provided, or refused. -/
  | provide (id : SessionId) (accepted : Bool)
  /-- An attempt tells its outcome. -/
  | conclude (id : SessionId)
  /-- A connection is lost. -/
  | lose (connection : ConnectionId)
  /-- A watch notices that its connection is lost. -/
  | notice (id : SessionId)
  /-- A registration is withdrawn. -/
  | withdraw (registration : RegistrationId)
  /-- A forwarded call is made. -/
  | begin (call : CallId)
  /-- A forwarded call returns. -/
  | settle (call : CallId) (outcome : Except SessionError CallResult)
  /-- The outcome of a forwarded call is passed on. -/
  | answer (call : CallId)
  /-- Discovery events are followed from now on. -/
  | follow
  /-- A discovery event is passed on. -/
  | event (info : DomainInfo)
  /-- There are no more discovery events. -/
  | unfollow
  /-- The discovery side takes the oldest request to forget. -/
  | takeForget

namespace Exchange

/-! ## The registry -/

/-- Carries out an effect, or begins to. -/
def perform (e : Exchange) : Effect → Exchange
  | .connect domain id address => { e with dials := e.dials.insert id { domain, address } }
  | .abort id => { e with dials := e.dials.erase id }
  | .watch domain id connection =>
    { e with watches := e.watches.insert id { domain, connection } }
  | .withdraw registration => { e with withdrawals := e.withdrawals ++ [registration] }
  | .forget domain => { e with forgets := e.forgets ++ [domain] }
  | .forward call connection procedure arguments =>
    { e with forwards := e.forwards.insert call { connection, procedure, arguments } }
  | .refuse call error =>
    { e with calls := e.calls.modify call (·.answer (.error error.message)) }
  | .report query listing =>
    { e with queries := e.queries.modify query fun _ => .answered listing }

/-- What becomes of a command that is not handled any more. -/
def dismiss (e : Exchange) : Command → Exchange
  | .route call _ => { e with calls := e.calls.modify call ReplySlot.abandon }
  | .list query => { e with queries := e.queries.modify query fun _ => .closed }
  | _ => e

/-- The registry stops: attempts are broken off and queued commands are dismissed. A follower that
waits in line gives up. -/
def halt (e : Exchange) : Exchange :=
  { e.queue.foldl dismiss e with
    running := false
    queue := []
    dials := ∅
    following := e.following && e.followerWait = 0
    followerWait := 0 }

/-- The registry handles its next command. It stops when it is told to, and when its queue is empty
and nobody can fill it any more. -/
def serve (e : Exchange) : Option Exchange :=
  if !e.running then none
  else
    match e.queue with
    | [] => if e.isHeld then none else some e.halt
    | .stop :: rest => some { e with queue := rest }.halt
    | c :: rest =>
      let (registry, effects) := e.registry.react e.nextSession c
      some (effects.foldl perform
        { e with
          registry
          queue := rest
          nextSession := e.nextSession + 1
          followerWait := e.followerWait - 1 })

/-! ## Attempts -/

/-- The stage of an attempt changes. -/
def advance (e : Exchange) (id : SessionId) (stage : DialStage) : Exchange :=
  { e with dials := e.dials.modify id fun d => { d with stage } }

/-- An attempt begins to make its connection. -/
def dial (e : Exchange) (id : SessionId) : Option Exchange :=
  match e.dials.get? id with
  | some ⟨_, _, .started⟩ => some (e.advance id .dialing)
  | _ => none

/-- The connection of an attempt is there, or could not be made. -/
def connect (e : Exchange) (id : SessionId) (connection : Option ConnectionId) :
    Option Exchange :=
  match e.dials.get? id with
  | some ⟨_, _, .dialing⟩ =>
    some (e.advance id (connection.elim (.finished none) .providing))
  | _ => none

/-- The home connection provides the pattern of an attempt, or refuses it. -/
def provide (e : Exchange) (id : SessionId) (accepted : Bool) : Option Exchange :=
  match e.dials.get? id with
  | some ⟨domain, _, .providing connection⟩ =>
    if accepted then
      let (registration, provider) := e.provider.provide (DomainInfo.routePattern domain)
      some ({ e with provider }.advance id (.finished (some ⟨connection, registration⟩)))
    else some (e.advance id (.finished none))
  | _ => none

/-- An attempt tells its outcome and is over. -/
def conclude (e : Exchange) (id : SessionId) : Option Exchange :=
  match e.dials.get? id with
  | some ⟨domain, _, .finished outcome⟩ =>
    some ({ e with dials := e.dials.erase id }.tell (.attempted domain id outcome))
  | _ => none

/-! ## Watches and withdrawals -/

/-- A watch whose connection is lost tells it and is over. -/
def notice (e : Exchange) (id : SessionId) : Option Exchange :=
  match e.watches.get? id with
  | some w =>
    if w.connection ∈ e.lost then
      some ({ e with watches := e.watches.erase id }.tell (.lost w.domain id))
    else none
  | none => none

/-- A registration is withdrawn from the home connection. -/
def withdraw (e : Exchange) (registration : RegistrationId) : Option Exchange :=
  if registration ∈ e.withdrawals then
    some { e with
      withdrawals := e.withdrawals.erase registration
      provider := e.provider.withdraw registration }
  else none

/-! ## Forwarded calls -/

/-- What the caller is told of the outcome of a forwarded call. -/
def replyOf : Except SessionError CallResult → Reply
  | .ok result => .result result
  | .error error => .error error.message

/-- A forwarded call is made on its connection. -/
def begin (e : Exchange) (call : CallId) : Option Exchange :=
  match e.forwards.get? call with
  | some f =>
    if f.stage = .ready then
      some { e with forwards := e.forwards.insert call { f with stage := .calling } }
    else none
  | none => none

/-- A forwarded call returns, and its permit is free again. -/
def settle (e : Exchange) (call : CallId) (outcome : Except SessionError CallResult) :
    Option Exchange :=
  match e.forwards.get? call with
  | some f =>
    if f.stage = .calling then
      some { e with
        forwards := e.forwards.insert call { f with stage := .answering (replyOf outcome) }
        registry := { e.registry with permits := e.registry.permits + 1 } }
    else none
  | none => none

/-- The outcome of a forwarded call reaches its caller. -/
def answer (e : Exchange) (call : CallId) : Option Exchange :=
  match e.forwards.get? call with
  | some ⟨_, _, _, .answering reply⟩ =>
    some { e with
      forwards := e.forwards.erase call
      calls := e.calls.modify call (·.answer reply) }
  | _ => none

/-! ## Discovery events -/

/-- The follower of discovery events passes one on. It takes no event while it waits in line, and
gives up when the registry has stopped. -/
def event (e : Exchange) (info : DomainInfo) : Option Exchange :=
  if !e.following || e.followerWait ≠ 0 then none
  else
    match e.send (.discovered info) with
    | some sent => some { sent with followerWait := sent.queue.length - capacity }
    | none => some { e with following := false }

/-- The follower gives up because there are no more discovery events. -/
def unfollow (e : Exchange) : Option Exchange :=
  if e.following && e.followerWait = 0 then some { e with following := false } else none

/-! ## Actions -/

/-- One action, if it is possible. -/
def step (e : Exchange) : ExchangeAction → Option Exchange
  | .discover info => if e.handles = 0 then none else e.send (.discovered info)
  | .call i => if e.handles = 0 then none else some (e.offer i)
  | .invoke i => some (e.offer i)
  | .ask => if e.handles = 0 then none else some e.ask
  | .shutdown => if e.handles = 0 then none else e.send .stop
  | .share => if e.handles = 0 then none else some { e with handles := e.handles + 1 }
  | .release => if e.handles = 0 then none else some { e with handles := e.handles - 1 }
  | .leave call => some { e with calls := e.calls.modify call ReplySlot.abandon }
  | .serve => e.serve
  | .dial id => e.dial id
  | .connect id connection => e.connect id connection
  | .provide id accepted => e.provide id accepted
  | .conclude id => e.conclude id
  | .lose connection => some { e with lost := connection :: e.lost }
  | .notice id => e.notice id
  | .withdraw registration => e.withdraw registration
  | .begin call => e.begin call
  | .settle call outcome => e.settle call outcome
  | .answer call => e.answer call
  | .follow => if e.handles = 0 || e.following then none else some { e with following := true }
  | .event info => e.event info
  | .unfollow => e.unfollow
  | .takeForget => if e.forgets.isEmpty then none else some { e with forgets := e.forgets.tail }

/-- Performs actions one after the other, leaving out those that are not possible. -/
def run (e : Exchange) (actions : List ExchangeAction) : Exchange :=
  actions.foldl (fun e a => (e.step a).getD e) e

/-- What may become of an exchange. -/
inductive Reaches (e : Exchange) : Exchange → Prop
  | refl : Reaches e e
  | step {m n : Exchange} (a : ExchangeAction) : Reaches e m → m.step a = some n → Reaches e n

end Exchange
end Switchboard
