import Switchboard.Exchange.Step
import Mathlib.Data.List.Basic

/-!
# What an action does to an exchange

* `Exchange.Served` lists what may become of an exchange when the registry answers a command, and
  `served_of_serve` reads it off `Registry.react`. `serve_stop`, `serve_cons` and `serve_nil` say
  what it does for each queue.
* `Exchange.Change` lists what may become of it by an action, with what has to hold for it.
  `change_of_step` says that the list is complete.
-/

namespace Switchboard

namespace Exchange

/-! ## The answer to a command -/

/-- The exchange when the registry has taken a command and not acted on it yet. -/
def taken (e : Exchange) (rest : List Command) : Exchange :=
  { e with
    queue := rest
    nextSession := e.nextSession + 1
    followerWait := e.followerWait - 1 }

/-- The exchange with another table of sessions. -/
def withTable (e : Exchange) (table : Table String Entry) : Exchange :=
  { e with registry := { e.registry with table } }

/-- What becomes of an exchange when the registry answers a command. -/
inductive Served (e : Exchange) (rest : List Command) : Command → Exchange → Prop
  /-- A domain that has a session is heard again. -/
  | known {info : DomainInfo} (h : e.registry.table.contains info.key = true) :
    Served e rest (.discovered info) (e.taken rest)
  /-- A new domain has no usable address. -/
  | unusable {info : DomainInfo} (h : e.registry.table.get? info.key = none)
      (ha : info.endpoint? = none) :
    Served e rest (.discovered info) { e.taken rest with forgets := e.forgets ++ [info.key] }
  /-- An attempt to reach a new domain begins. -/
  | begun {info : DomainInfo} {address : Endpoint}
      (h : e.registry.table.get? info.key = none) (ha : info.endpoint? = some address) :
    Served e rest (.discovered info)
      { (e.taken rest).withTable
          (e.registry.table.insert info.key (.connecting e.nextSession address)) with
        dials := e.dials.insert e.nextSession { domain := info.key, address } }
  /-- The attempt under way has been successful. -/
  | joined {domain : String} {id : SessionId} {address : Endpoint} {link : Link}
      (h : e.registry.table.get? domain = some (.connecting id address)) :
    Served e rest (.attempted domain id (some link))
      { (e.taken rest).withTable (e.registry.table.insert domain (.connected id address link)) with
        watches := e.watches.insert id { domain, connection := link.connection } }
  /-- The attempt under way has failed. -/
  | failed {domain : String} {id : SessionId} {address : Endpoint}
      (h : e.registry.table.get? domain = some (.connecting id address)) :
    Served e rest (.attempted domain id none)
      { (e.taken rest).withTable (e.registry.table.erase domain) with
        dials := e.dials.erase id
        forgets := e.forgets ++ [domain] }
  /-- An attempt has ended that is not under way. -/
  | discarded {domain : String} {id : SessionId} {outcome : Option Link}
      (h : ∀ address, e.registry.table.get? domain ≠ some (.connecting id address)) :
    Served e rest (.attempted domain id outcome)
      { e.taken rest with
        withdrawals := e.withdrawals ++ (outcome.map Link.registration).toList }
  /-- The connection of a session that is being made is lost. -/
  | broken {domain : String} {id : SessionId} {address : Endpoint}
      (h : e.registry.table.get? domain = some (.connecting id address)) :
    Served e rest (.lost domain id)
      { (e.taken rest).withTable (e.registry.table.erase domain) with
        dials := e.dials.erase id
        forgets := e.forgets ++ [domain] }
  /-- The connection of a usable session is lost. -/
  | ended {domain : String} {id : SessionId} {entry : Entry} {link : Link}
      (h : e.registry.table.get? domain = some entry) (hid : entry.id = id)
      (hl : entry.link? = some link) :
    Served e rest (.lost domain id)
      { (e.taken rest).withTable (e.registry.table.erase domain) with
        withdrawals := e.withdrawals ++ [link.registration]
        forgets := e.forgets ++ [domain] }
  /-- A connection is lost that is not that of the present session. -/
  | ignored {domain : String} {id : SessionId}
      (h : ∀ entry, e.registry.table.get? domain = some entry → entry.id ≠ id) :
    Served e rest (.lost domain id) (e.taken rest)
  /-- A call is refused. -/
  | refused {call : CallId} {i : Invocation} {error : RouteError} :
    Served e rest (.route call i)
      { e.taken rest with calls := e.calls.modify call (·.answer (.error error.message)) }
  /-- A call is forwarded. -/
  | forwarded {call : CallId} {i : Invocation} {target : Target} {link : Link}
      (ht : parseTarget i.procedure = .ok target)
      (hl : e.registry.route? target.domain = some link) (hp : 0 < e.registry.permits) :
    Served e rest (.route call i)
      { e.taken rest with
        registry := { e.registry with permits := e.registry.permits - 1 }
        forwards := e.forwards.insert call
          { connection := link.connection, procedure := target.procedure,
            arguments := ⟨i.args, i.kwargs⟩ } }
  /-- The sessions are listed. -/
  | listed {query : QueryId} :
    Served e rest (.list query)
      { e.taken rest with
        queries := e.queries.modify query fun _ => .answered e.registry.listing }

/-- The exchange when the registry has answered a command and its effects have been begun. -/
def acted (e : Exchange) (rest : List Command) (answer : Registry × List Effect) : Exchange :=
  answer.2.foldl perform { e.taken rest with registry := answer.1 }

section Served

variable (e : Exchange) (rest : List Command)

lemma served_discover (info : DomainInfo) :
    e.Served rest (.discovered info) (e.acted rest (e.registry.discover e.nextSession info)) := by
  unfold Registry.discover
  split
  · next hk => exact .known hk
  · next hk =>
    have hnone : e.registry.table.get? info.key = none := by simpa [Table.contains] using hk
    split
    · next ha => exact .unusable hnone ha
    · next address ha => exact .begun hnone ha

lemma served_discard {domain : String} {id : SessionId} (outcome : Option Link)
    (h : ∀ address, e.registry.table.get? domain ≠ some (.connecting id address)) :
    e.Served rest (.attempted domain id outcome)
      (e.acted rest (e.registry, Registry.discard outcome)) := by
  have hs := @Served.discarded e rest domain id outcome h
  cases outcome with
  | none =>
    rw [Option.map_none, Option.toList_none, List.append_nil] at hs
    exact hs
  | some link => exact hs

lemma served_conclude (domain : String) (id : SessionId) (outcome : Option Link) :
    e.Served rest (.attempted domain id outcome)
      (e.acted rest (e.registry.conclude domain id outcome)) := by
  unfold Registry.conclude
  split
  · next current address hget =>
    by_cases hid : current = id
    · subst hid
      rw [if_neg (by simp)]
      cases outcome with
      | none =>
        simp only [Registry.remove, hget]
        exact .failed hget
      | some link => exact .joined hget
    · rw [if_pos hid]
      apply served_discard
      intro a ha
      rw [hget, Option.some.injEq, Entry.connecting.injEq] at ha
      exact hid ha.1
  · next hget => exact served_discard e rest outcome fun a ha => hget _ _ ha

lemma served_lose (domain : String) (id : SessionId) :
    e.Served rest (.lost domain id) (e.acted rest (e.registry.lose domain id)) := by
  unfold Registry.lose
  split
  · next hget => exact .ignored fun entry he => by simp [hget] at he
  · next entry hget =>
    split
    · next hid =>
      simp only [Registry.remove, hget]
      cases entry with
      | home i link => exact .ended hget hid rfl
      | connecting i address =>
        subst hid
        exact .broken hget
      | connected i address link => exact .ended hget hid rfl
    · next hid =>
      refine .ignored fun x hx => ?_
      rw [hget, Option.some.injEq] at hx
      rw [← hx]
      exact hid

lemma served_route (call : CallId) (i : Invocation) :
    e.Served rest (.route call i) (e.acted rest (e.registry.route call i)) := by
  unfold Registry.route
  split
  · exact .refused
  · next target ht =>
    split
    · exact .refused
    · next link hl =>
      split
      · exact .refused
      · next permits hp =>
        have hs := @Served.forwarded e rest call i target link ht hl (by omega)
        rw [hp] at hs
        exact hs

/-- The registry answers any command but the one to stop. -/
theorem served_react {c : Command} (hc : c ≠ .stop) :
    e.Served rest c (e.acted rest (e.registry.react e.nextSession c)) := by
  cases c with
  | discovered info => exact served_discover e rest info
  | attempted domain id outcome => exact served_conclude e rest domain id outcome
  | lost domain id => exact served_lose e rest domain id
  | route call i => exact served_route e rest call i
  | list query => exact .listed
  | stop => exact absurd rfl hc

end Served

/-- The registry answers its next command, or stops. -/
theorem served_of_serve {e e' : Exchange} (h : e.serve = some e') :
    e.running = true ∧
      ((∃ rest, rest <:+ e.queue ∧ e' = { e with queue := rest }.halt) ∨
        ∃ c rest, e.queue = c :: rest ∧ e.Served rest c e') := by
  unfold serve at h
  split at h
  · exact absurd h (by simp)
  · next hrun =>
    refine ⟨by simpa using hrun, ?_⟩
    split at h
    · next hq =>
      split at h
      · exact absurd h (by simp)
      · refine .inl ⟨[], List.nil_suffix, ?_⟩
        rw [← hq]
        exact (Option.some.inj h).symm
    · next rest hq => exact .inl ⟨rest, hq ▸ List.suffix_cons _ _, (Option.some.inj h).symm⟩
    · next c rest hne hq =>
      refine .inr ⟨c, rest, hq, ?_⟩
      rw [← Option.some.inj h]
      exact served_react e rest hne

section serve

variable {e e' : Exchange} {c : Command} {rest : List Command}

/-- The registry stops when it is told to, and drops what is left in the queue. -/
theorem serve_stop (hr : e.running = true) (hq : e.queue = .stop :: rest) :
    e.step .serve = some { e with queue := rest }.halt := by
  change e.serve = _
  unfold serve
  rw [if_neg (by simp [hr]), hq]

/-- The registry takes the first command of its queue and carries out its effects. -/
theorem serve_cons (hr : e.running = true) (hq : e.queue = c :: rest) (hc : c ≠ .stop) :
    e.step .serve = some (e.acted rest (e.registry.react e.nextSession c)) := by
  change e.serve = _
  unfold serve
  rw [if_neg (by simp [hr]), hq]
  cases c with
  | stop => exact absurd rfl hc
  | _ => rfl

/-- With an empty queue that nobody holds, the registry halts. -/
theorem serve_nil (hr : e.running = true) (hq : e.queue = []) (h : e.step .serve = some e') :
    e' = e.halt := by
  change e.serve = _ at h
  unfold serve at h
  simp only [hr, hq] at h
  split at h
  · exact absurd h (by simp)
  · split at h
    · exact absurd h (by simp)
    · exact (Option.some.inj h).symm

/-- The registry can handle a command that is there. -/
theorem isSome_serve (hr : e.running = true) (hq : e.queue = c :: rest) :
    (e.step .serve).isSome = true := by
  by_cases hc : c = .stop
  · rw [serve_stop hr (hc ▸ hq)]
    rfl
  · rw [serve_cons hr hq hc]
    rfl

end serve

/-! ## Any action -/

/-- A call that comes in joins the queue, or is answered at once. -/
theorem offer_cases (e : Exchange) (i : Invocation) :
    (e.isHeld = true ∧
      e.offer i =
        { e with
          nextCall := e.nextCall + 1
          calls := e.calls.insert e.nextCall .waiting
          queue := e.queue ++ [.route e.nextCall i] }) ∨
      ∃ message, e.offer i =
        { e with
          nextCall := e.nextCall + 1
          calls := e.calls.insert e.nextCall (.answered (.error message)) } := by
  unfold offer
  by_cases hclosed : (!e.running || !e.isHeld) = true
  · rw [if_pos hclosed]
    exact .inr ⟨_, rfl⟩
  · rw [if_neg hclosed]
    by_cases hfull : e.isFull = true
    · rw [if_pos hfull]
      exact .inr ⟨_, rfl⟩
    · rw [if_neg hfull]
      exact .inl ⟨by simp_all, rfl⟩

/-- A command is put at the end of the queue, or is lost when nobody is there to take it. -/
lemma tell_cases (e : Exchange) (c : Command) :
    (e.tell c = e ∧ (e.isHeld = true → e.running = false)) ∨
      (e.tell c = { e with queue := e.queue ++ [c] } ∧ e.isHeld = true) := by
  unfold tell send
  split
  · next hh =>
    split
    · exact .inr ⟨rfl, hh⟩
    · next hr => exact .inl ⟨rfl, fun _ => by simpa using hr⟩
  · next hh => exact .inl ⟨rfl, fun hheld => absurd hheld hh⟩

/-- A call that comes in changes neither the sessions nor what is forwarded. -/
theorem offer_fields (e : Exchange) (i : Invocation) :
    (e.offer i).registry = e.registry ∧ (e.offer i).forwards = e.forwards ∧
      (e.offer i).forgets = e.forgets := by
  obtain ⟨-, h⟩ | ⟨message, h⟩ := e.offer_cases i <;> rw [h] <;> exact ⟨rfl, rfl, rfl⟩

/-- Nor does what a task tells, before the registry comes to it. -/
theorem tell_fields (e : Exchange) (c : Command) :
    (e.tell c).registry = e.registry ∧ (e.tell c).forwards = e.forwards ∧
      (e.tell c).forgets = e.forgets ∧ (e.tell c).nextCall = e.nextCall := by
  obtain ⟨h, -⟩ | ⟨h, -⟩ := e.tell_cases c <;> rw [h] <;> exact ⟨rfl, rfl, rfl, rfl⟩

/-- What becomes of an exchange by an action. -/
inductive Change (e : Exchange) : ExchangeAction → Exchange → Prop
  | discovered {info : DomainInfo} (hh : e.handles ≠ 0) :
    Change e (.discover info) { e with queue := e.queue ++ [.discovered info] }
  | called {i : Invocation} : Change e (.call i) (e.offer i)
  | invoked {i : Invocation} : Change e (.invoke i) (e.offer i)
  | asked (hh : e.handles ≠ 0) : Change e .ask e.ask
  | shut (hh : e.handles ≠ 0) : Change e .shutdown { e with queue := e.queue ++ [.stop] }
  | shared (hh : e.handles ≠ 0) : Change e .share { e with handles := e.handles + 1 }
  | released (hh : e.handles ≠ 0) : Change e .release { e with handles := e.handles - 1 }
  | left {call : CallId} :
    Change e (.leave call) { e with calls := e.calls.modify call ReplySlot.abandon }
  | stopped {rest : List Command} (hr : e.running = true) (hrest : rest <:+ e.queue) :
    Change e .serve { e with queue := rest }.halt
  | served {c : Command} {rest : List Command} {e' : Exchange} (hr : e.running = true)
      (hq : e.queue = c :: rest) (hs : e.Served rest c e') : Change e .serve e'
  | dialed {id : SessionId} {domain : String} {address : Endpoint}
      (hd : e.dials.get? id = some ⟨domain, address, .started⟩) :
    Change e (.dial id) (e.advance id .dialing)
  | connected {id : SessionId} {domain : String} {address : Endpoint} {connection : ConnectionId}
      (hd : e.dials.get? id = some ⟨domain, address, .dialing⟩) :
    Change e (.connect id (some connection)) (e.advance id (.providing connection))
  | unreachable {id : SessionId} {domain : String} {address : Endpoint}
      (hd : e.dials.get? id = some ⟨domain, address, .dialing⟩) :
    Change e (.connect id none) (e.advance id (.finished none))
  | provided {id : SessionId} {domain : String} {address : Endpoint} {connection : ConnectionId}
      (hd : e.dials.get? id = some ⟨domain, address, .providing connection⟩) :
    Change e (.provide id true)
      ({ e with provider := (e.provider.provide (DomainInfo.routePattern domain)).2 }.advance id
        (.finished (some ⟨connection, e.provider.next⟩)))
  | unprovided {id : SessionId} {domain : String} {address : Endpoint} {connection : ConnectionId}
      (hd : e.dials.get? id = some ⟨domain, address, .providing connection⟩) :
    Change e (.provide id false) (e.advance id (.finished none))
  | concluded {id : SessionId} {domain : String} {address : Endpoint} {outcome : Option Link}
      (hd : e.dials.get? id = some ⟨domain, address, .finished outcome⟩) :
    Change e (.conclude id)
      ({ e with dials := e.dials.erase id }.tell (.attempted domain id outcome))
  | lost {connection : ConnectionId} :
    Change e (.lose connection) { e with lost := connection :: e.lost }
  | noticed {id : SessionId} {w : LossWatch} (hw : e.watches.get? id = some w)
      (hl : w.connection ∈ e.lost) :
    Change e (.notice id) ({ e with watches := e.watches.erase id }.tell (.lost w.domain id))
  | withdrew {registration : RegistrationId} (h : registration ∈ e.withdrawals) :
    Change e (.withdraw registration)
      { e with
        withdrawals := e.withdrawals.erase registration
        provider := e.provider.withdraw registration }
  | begun {call : CallId} {f : Forward} (hf : e.forwards.get? call = some f)
      (hstage : f.stage = .ready) :
    Change e (.begin call)
      { e with forwards := e.forwards.insert call { f with stage := .calling } }
  | settled {call : CallId} {f : Forward} {outcome : Except SessionError CallResult}
      (hf : e.forwards.get? call = some f) (hstage : f.stage = .calling) :
    Change e (.settle call outcome)
      { e with
        forwards := e.forwards.insert call { f with stage := .answering (replyOf outcome) }
        registry := { e.registry with permits := e.registry.permits + 1 } }
  | answered {call : CallId} {f : Forward} {reply : Reply} (hf : e.forwards.get? call = some f)
      (hstage : f.stage = .answering reply) :
    Change e (.answer call)
      { e with
        forwards := e.forwards.erase call
        calls := e.calls.modify call (·.answer reply) }
  | followed (hh : e.handles ≠ 0) (hf : e.following = false) :
    Change e .follow { e with following := true }
  | passed {info : DomainInfo} {wait : Nat} (hf : e.following = true) (hw : e.followerWait = 0)
      (hr : e.running = true) (hwait : wait = e.queue.length + 1 - capacity) :
    Change e (.event info)
      { e with queue := e.queue ++ [.discovered info], followerWait := wait }
  /-- The registry has stopped. -/
  | unpassed {info : DomainInfo} (hf : e.following = true) (hr : e.running = false) :
    Change e (.event info) { e with following := false }
  | unfollowed (hf : e.following = true) : Change e .unfollow { e with following := false }
  | forgot : Change e .takeForget { e with forgets := e.forgets.tail }

variable {e e' : Exchange}

lemma eq_of_send {c : Command} (h : e.send c = some e') :
    e.running = true ∧ e' = { e with queue := e.queue ++ [c] } := by
  unfold send at h
  split at h
  · next hr => exact ⟨hr, (Option.some.inj h).symm⟩
  · exact absurd h (by simp)

lemma change_of_serve (h : e.serve = some e') : e.Change .serve e' := by
  obtain ⟨hr, ⟨rest, hrest, rfl⟩ | ⟨c, rest, hq, hs⟩⟩ := served_of_serve h
  · exact .stopped hr hrest
  · exact .served hr hq hs

lemma change_of_dial {id : SessionId} (h : e.dial id = some e') : e.Change (.dial id) e' := by
  unfold dial at h
  split at h
  · next hd =>
    rw [← Option.some.inj h]
    exact .dialed hd
  · exact absurd h (by simp)

lemma change_of_connect {id : SessionId} {connection : Option ConnectionId}
    (h : e.connect id connection = some e') : e.Change (.connect id connection) e' := by
  unfold connect at h
  split at h
  · next hd =>
    rw [← Option.some.inj h]
    cases connection with
    | none => exact .unreachable hd
    | some c => exact .connected hd
  · exact absurd h (by simp)

lemma change_of_provide {id : SessionId} {accepted : Bool} (h : e.provide id accepted = some e') :
    e.Change (.provide id accepted) e' := by
  unfold provide at h
  split at h
  · next hd =>
    cases accepted with
    | true =>
      rw [← Option.some.inj h]
      exact .provided hd
    | false =>
      rw [← Option.some.inj h]
      exact .unprovided hd
  · exact absurd h (by simp)

lemma change_of_conclude {id : SessionId} (h : e.conclude id = some e') :
    e.Change (.conclude id) e' := by
  unfold conclude at h
  split at h
  · next hd =>
    rw [← Option.some.inj h]
    exact .concluded hd
  · exact absurd h (by simp)

lemma change_of_notice {id : SessionId} (h : e.notice id = some e') :
    e.Change (.notice id) e' := by
  unfold notice at h
  split at h
  · next hw =>
    split at h
    · next hl =>
      rw [← Option.some.inj h]
      exact .noticed hw hl
    · exact absurd h (by simp)
  · exact absurd h (by simp)

lemma change_of_withdraw {r : RegistrationId} (h : e.withdraw r = some e') :
    e.Change (.withdraw r) e' := by
  unfold withdraw at h
  split at h
  · next hr =>
    rw [← Option.some.inj h]
    exact .withdrew hr
  · exact absurd h (by simp)

lemma change_of_begin {call : CallId} (h : e.begin call = some e') :
    e.Change (.begin call) e' := by
  unfold begin at h
  split at h
  · next hf =>
    split at h
    · next hstage =>
      rw [← Option.some.inj h]
      exact .begun hf hstage
    · exact absurd h (by simp)
  · exact absurd h (by simp)

lemma change_of_settle {call : CallId} {outcome : Except SessionError CallResult}
    (h : e.settle call outcome = some e') : e.Change (.settle call outcome) e' := by
  unfold settle at h
  split at h
  · next hf =>
    split at h
    · next hstage =>
      rw [← Option.some.inj h]
      exact .settled hf hstage
    · exact absurd h (by simp)
  · exact absurd h (by simp)

lemma change_of_answer {call : CallId} (h : e.answer call = some e') :
    e.Change (.answer call) e' := by
  unfold answer at h
  split at h
  · next hf =>
    rw [← Option.some.inj h]
    exact .answered hf rfl
  · exact absurd h (by simp)

lemma change_of_event {info : DomainInfo} (h : e.event info = some e') :
    e.Change (.event info) e' := by
  unfold event at h
  split at h
  · exact absurd h (by simp)
  · next hfree =>
    have hf : e.following = true ∧ e.followerWait = 0 := by simpa using hfree
    split at h
    · next sent hs =>
      obtain ⟨hr, rfl⟩ := eq_of_send hs
      have hlength : (e.queue ++ [Command.discovered info]).length = e.queue.length + 1 := by
        rw [List.length_append, List.length_singleton]
      simp only [hlength] at h
      generalize hwait : e.queue.length + 1 - capacity = wait at h
      rw [← Option.some.inj h]
      exact .passed hf.1 hf.2 hr hwait.symm
    · next hs =>
      rw [← Option.some.inj h]
      exact .unpassed hf.1 (by simpa [send] using hs)

/-- What is done through a handle takes one. -/
theorem of_handle {x : Option Exchange} (h : (if e.handles = 0 then none else x) = some e') :
    e.handles ≠ 0 ∧ x = some e' := by
  split at h
  · exact absurd h (by simp)
  · next hh => exact ⟨hh, h⟩

/-- Every action is one of the changes. -/
theorem change_of_step {a : ExchangeAction} (h : e.step a = some e') : e.Change a e' := by
  cases a with
  | discover info =>
    obtain ⟨hh, hs⟩ := of_handle h
    obtain ⟨-, rfl⟩ := eq_of_send hs
    exact .discovered hh
  | shutdown =>
    obtain ⟨hh, hs⟩ := of_handle h
    obtain ⟨-, rfl⟩ := eq_of_send hs
    exact .shut hh
  | call i =>
    rw [← Option.some.inj (of_handle h).2]
    exact .called
  | ask =>
    obtain ⟨hh, hs⟩ := of_handle h
    rw [← Option.some.inj hs]
    exact .asked hh
  | share =>
    obtain ⟨hh, hs⟩ := of_handle h
    rw [← Option.some.inj hs]
    exact .shared hh
  | release =>
    obtain ⟨hh, hs⟩ := of_handle h
    rw [← Option.some.inj hs]
    exact .released hh
  | invoke i =>
    rw [← Option.some.inj h]
    exact .invoked
  | leave call =>
    rw [← Option.some.inj h]
    exact .left
  | lose connection =>
    rw [← Option.some.inj h]
    exact .lost
  | serve => exact change_of_serve h
  | dial id => exact change_of_dial h
  | connect id connection => exact change_of_connect h
  | provide id accepted => exact change_of_provide h
  | conclude id => exact change_of_conclude h
  | notice id => exact change_of_notice h
  | withdraw r => exact change_of_withdraw h
  | begin call => exact change_of_begin h
  | settle call outcome => exact change_of_settle h
  | answer call => exact change_of_answer h
  | event info => exact change_of_event h
  | follow =>
    simp only [step] at h
    split at h
    · exact absurd h (by simp)
    · next hfree =>
      have hf : e.handles ≠ 0 ∧ e.following = false := by simpa using hfree
      rw [← Option.some.inj h]
      exact .followed hf.1 hf.2
  | unfollow =>
    simp only [step, unfollow] at h
    split at h
    · next hfree =>
      have hf : e.following = true ∧ e.followerWait = 0 := by simpa using hfree
      rw [← Option.some.inj h]
      exact .unfollowed hf.1
    · exact absurd h (by simp)
  | takeForget =>
    simp only [step] at h
    split at h
    · exact absurd h (by simp)
    · rw [← Option.some.inj h]
      exact .forgot

end Exchange
end Switchboard
