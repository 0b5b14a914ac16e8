import Switchboard.Proofs.Exchange.Steps
import Switchboard.Proofs.Store.History

/-!
# What an action does to the sessions of an exchange

An action either moves an attempt, a watch or a withdrawal, or the registry answers a command, or
the sessions are left alone. These are the forms of `Exchange.Transition`, and every invariant of
the sessions is proved by going through them:

* `transition_of_step` covers all actions;
* `Reaches.invariant` goes from one action to any run of a registry that has not stopped;
* `Transition.isHeld` says that a queue that nobody keeps open stays so;
* `Exchange.Past` is all that has happened to an exchange.
-/

namespace Switchboard

/-- Whether a task tells the registry by this command that it is over. -/
def Command.isReport : Command → Bool
  | .attempted .. | .lost .. => true
  | _ => false

/-- Whether an action is the registry's, or that of a task that it has begun for its sessions. -/
def ExchangeAction.isTask : ExchangeAction → Bool
  | .serve | .dial _ | .connect .. | .provide .. | .conclude _ | .notice _ | .withdraw _ => true
  | _ => false

/-- Whether an attempt at this stage has the registration that it was made for. -/
def DialStage.link? : DialStage → Option Link
  | .finished outcome => outcome
  | _ => none

namespace Exchange

@[simp] lemma running_halt (e : Exchange) : e.halt.running = false := rfl

/-! ## Any action -/

/-- The queue is held by handles, by the follower, or by a command that waits for room. -/
lemma isHeld_iff {e : Exchange} :
    e.isHeld = true ↔ 0 < e.handles ∨ e.following = true ∨ capacity < e.queue.length := by
  simp [isHeld, or_assoc]

/-- The sessions and their tasks are as before, and no task has told that it is over. -/
structure Untouched (e e' : Exchange) : Prop where
  table : e'.registry.table = e.registry.table := by rfl
  running : e'.running = e.running := by rfl
  nextSession : e'.nextSession = e.nextSession := by rfl
  dials : e'.dials = e.dials := by rfl
  watches : e'.watches = e.watches := by rfl
  withdrawals : e'.withdrawals = e.withdrawals := by rfl
  provider : e'.provider = e.provider := by rfl
  queue : ∃ extra, e'.queue = e.queue ++ extra ∧ ∀ c ∈ extra, c.isReport = false :=
    by exact ⟨[], (List.append_nil _).symm, by simp⟩
  held : e'.isHeld = true → e.isHeld = true := by exact id

/-- What becomes of an exchange by an action, as far as its sessions are concerned. -/
inductive Transition (e : Exchange) : ExchangeAction → Exchange → Prop
  | aside {a : ExchangeAction} {e' : Exchange} (h : e.Untouched e') : Transition e a e'
  | served {c : Command} {rest : List Command} {e' : Exchange} (hq : e.queue = c :: rest)
      (h : e.Served rest c e') : Transition e .serve e'
  | stopped {a : ExchangeAction} {e' : Exchange} (h : e'.running = false) : Transition e a e'
  /-- An attempt goes on, without a registration before and after. -/
  | advanced {a : ExchangeAction} {id : SessionId} {d : Dial} {stage : DialStage}
      (hd : e.dials.get? id = some d) (hold : d.stage.link? = none) (hnew : stage.link? = none) :
    Transition e a (e.advance id stage)
  /-- An attempt is given its registration. -/
  | provided {id : SessionId} {domain : String} {address : Endpoint} {connection : ConnectionId}
      (hd : e.dials.get? id = some ⟨domain, address, .providing connection⟩) :
    Transition e (.provide id true)
      ({ e with provider := (e.provider.provide (DomainInfo.routePattern domain)).2 }.advance id
        (.finished (some ⟨connection, e.provider.next⟩)))
  /-- An attempt is over and tells its outcome. -/
  | concluded {id : SessionId} {domain : String} {address : Endpoint} {outcome : Option Link}
      (hd : e.dials.get? id = some ⟨domain, address, .finished outcome⟩) (hh : e.isHeld = true) :
    Transition e (.conclude id)
      { e with
        dials := e.dials.erase id
        queue := e.queue ++ [.attempted domain id outcome] }
  /-- An attempt is over, and there is no queue any more that would take its outcome. -/
  | unheard {id : SessionId} {domain : String} {address : Endpoint} {outcome : Option Link}
      (hd : e.dials.get? id = some ⟨domain, address, .finished outcome⟩) (hh : e.isHeld = false) :
    Transition e (.conclude id) { e with dials := e.dials.erase id }
  /-- A watch is over and tells what it has noticed. -/
  | noticed {id : SessionId} {w : LossWatch} (hw : e.watches.get? id = some w)
      (hh : e.isHeld = true) :
    Transition e (.notice id)
      { e with
        watches := e.watches.erase id
        queue := e.queue ++ [.lost w.domain id] }
  /-- A watch is over, and there is no queue any more. -/
  | unnoticed {id : SessionId} (hh : e.isHeld = false) :
    Transition e (.notice id) { e with watches := e.watches.erase id }
  | withdrew {registration : RegistrationId} (h : registration ∈ e.withdrawals) :
    Transition e (.withdraw registration)
      { e with
        withdrawals := e.withdrawals.erase registration
        provider := e.provider.withdraw registration }

lemma untouched_offer (e : Exchange) (i : Invocation) : e.Untouched (e.offer i) := by
  obtain ⟨hheld, h⟩ | ⟨message, h⟩ := e.offer_cases i <;> rw [h]
  · exact
      { queue := ⟨[.route e.nextCall i], rfl, by simp [Command.isReport]⟩, held := fun _ => hheld }
  · exact {}

lemma untouched_ask {e : Exchange} (hh : e.isHeld = true) : e.Untouched e.ask := by
  refine { queue := ?_, held := fun _ => hh }
  unfold ask
  by_cases hr : e.running = true
  · exact ⟨[.list e.nextQuery], by simp [hr], by simp [Command.isReport]⟩
  · exact ⟨[], by simp [hr], by simp⟩

/-- Other actions leave the sessions and their tasks alone. -/
theorem untouched_of_step {e e' : Exchange} {a : ExchangeAction} (ha : a.isTask = false)
    (h : e.step a = some e') : e.Untouched e' := by
  have hheld : e.handles ≠ 0 → e.isHeld = true := fun hne => isHeld_iff.2 (by omega)
  have hfollowing : e.following = true → e.isHeld = true := fun hf => isHeld_iff.2 (.inr (.inl hf))
  cases change_of_step h with
  | served | stopped | dialed | connected | unreachable | provided | unprovided | concluded
  | noticed | withdrew => exact absurd ha (by simp [ExchangeAction.isTask])
  | discovered hh | shut hh =>
    exact { queue := ⟨[_], rfl, by simp [Command.isReport]⟩, held := fun _ => hheld hh }
  | called | invoked => exact untouched_offer e _
  | asked hh => exact untouched_ask (hheld hh)
  | shared hh | released hh | followed hh => exact { held := fun _ => hheld hh }
  | passed hf =>
    exact { queue := ⟨[_], rfl, by simp [Command.isReport]⟩, held := fun _ => hfollowing hf }
  | unpassed hf | unfollowed hf => exact { held := fun _ => hfollowing hf }
  | left | lost | begun | settled | answered | forgot => exact {}

/-- Every action is one of the transitions. -/
theorem transition_of_step {e e' : Exchange} {a : ExchangeAction} (h : e.step a = some e') :
    e.Transition a e' := by
  cases change_of_step h with
  | served _ hq hs => exact .served hq hs
  | stopped => exact .stopped rfl
  | dialed hd | connected hd | unreachable hd | unprovided hd => exact .advanced hd rfl rfl
  | provided hd => exact .provided hd
  | @concluded id domain _ outcome hd =>
    obtain ⟨htell, hh⟩ | ⟨htell, hh⟩ :=
      tell_cases { e with dials := e.dials.erase id } (.attempted domain id outcome) <;> rw [htell]
    · by_cases hheld : e.isHeld = true
      · exact .stopped (hh hheld)
      · exact .unheard hd (by simpa using hheld)
    · exact .concluded hd hh
  | @noticed id w hw =>
    obtain ⟨htell, hh⟩ | ⟨htell, hh⟩ :=
      tell_cases { e with watches := e.watches.erase id } (.lost w.domain id) <;> rw [htell]
    · by_cases hheld : e.isHeld = true
      · exact .stopped (hh hheld)
      · exact .unnoticed (by simpa using hheld)
    · exact .noticed hw hh
  | withdrew hr => exact .withdrew hr
  | _ => exact .aside (untouched_of_step rfl h)

/-- An exchange that runs has been running. -/
theorem Transition.running {e e' : Exchange} {a : ExchangeAction} (h : e.Transition a e')
    (hr : e'.running = true) : e.running = true := by
  cases h with
  | aside h => rw [← h.running, hr]
  | served hq h => cases h <;> exact hr
  | stopped h => exact absurd hr (by simp [h])
  | _ => exact hr

/-- A registry that runs has not stopped before. -/
lemma Reaches.running {e e' : Exchange} (h : e.Reaches e') (hr : e'.running = true) :
    e.running = true := by
  induction h with
  | refl => exact hr
  | step _ _ hs ih => exact ih ((transition_of_step hs).running hr)

/-- What holds at first, and is kept by each action that does not stop the registry, holds as long
as the registry runs. -/
theorem Reaches.invariant {P : Exchange → Prop} {e e' : Exchange} (h : e.Reaches e')
    (hr : e'.running = true) (h₀ : P e)
    (hstep : ∀ m n a, e.Reaches m → m.running = true → m.step a = some n → n.running = true →
      P m → P n) : P e' := by
  induction h with
  | refl => exact h₀
  | @step m n a hm hs ih =>
    have hrun := (transition_of_step hs).running hr
    exact hstep m n a hm hrun hs hr (ih hrun)

/-- Once nobody is left who could send a command, nobody comes. -/
theorem Transition.isHeld {e e' : Exchange} {a : ExchangeAction} (h : e.Transition a e')
    (hr : e'.running = true) (hh : e'.isHeld = true) : e.isHeld = true := by
  cases h with
  | aside h => exact h.held hh
  | @served c rest _ hq h =>
    have hkept : e'.handles = e.handles ∧ e'.following = e.following ∧ e'.queue = rest := by
      cases h <;> exact ⟨rfl, rfl, rfl⟩
    have hlen : e.queue.length = rest.length + 1 := by rw [hq, List.length_cons]
    rw [isHeld_iff] at hh ⊢
    rw [hkept.1, hkept.2.1, hkept.2.2] at hh
    rw [hlen]
    rcases hh with hh | hh | hh
    · exact .inl hh
    · exact .inr (.inl hh)
    · exact .inr (.inr (by omega))
  | stopped h => exact absurd hr (by simp [h])
  | concluded _ hheld | noticed _ hheld => exact hheld
  | _ => exact hh

lemma Reaches.trans {e m e' : Exchange} (h : e.Reaches m) (h' : m.Reaches e') :
    e.Reaches e' := by
  induction h' with
  | refl => exact h
  | step a _ hs ih => exact .step a ih hs

/-- A run gets nowhere that single actions would not get. -/
theorem reaches_run (e : Exchange) (actions : List ExchangeAction) : e.Reaches (e.run actions) := by
  induction actions generalizing e with
  | nil => exact .refl
  | cons a rest ih =>
    have hrest := ih ((e.step a).getD e)
    cases hs : e.step a with
    | none =>
      rw [hs] at hrest
      rw [run, List.foldl_cons, hs]
      exact hrest
    | some e' =>
      rw [hs] at hrest
      rw [run, List.foldl_cons, hs]
      exact (Reaches.step a .refl hs).trans hrest

/-- The registry stops next: it comes to the command to stop, or its queue is empty and nobody keeps
it open. -/
def Due (e : Exchange) : Prop :=
  e.running = true ∧ ((∃ rest, e.queue = .stop :: rest) ∨ (e.queue = [] ∧ e.isHeld = false))

/-! ## All that has happened -/

/-- All that has happened to an exchange since it was `e₀`. -/
abbrev Past (e₀ : Exchange) : List (Exchange × ExchangeAction) → Exchange → Prop :=
  History step e₀

/-- What happens to an exchange by the actions of a list. -/
abbrev trail (e : Exchange) (actions : List ExchangeAction) : List (Exchange × ExchangeAction) :=
  History.trail step e actions

lemma Past.reaches {e₀ e : Exchange} {l : List (Exchange × ExchangeAction)} (h : Past e₀ l e) :
    e₀.Reaches e := by
  induction h with
  | started => exact .refl
  | step _ hs ih => exact .step _ ih hs

lemma past_trail (e : Exchange) (actions : List ExchangeAction) :
    Past e (e.trail actions) (e.run actions) :=
  History.of_run step e actions

/-- A queue that is kept open has been kept open all the time. -/
theorem isHeld_of_past {e₀ e : Exchange} {l : List (Exchange × ExchangeAction)} (h : Past e₀ l e)
    (hr : e.running = true) (hh : e.isHeld = true) : ∀ p ∈ l, p.1.isHeld = true := by
  induction h with
  | started => exact fun p hp => absurd hp List.not_mem_nil
  | step _ hs ih =>
    have htrans := transition_of_step hs
    have hbefore := htrans.isHeld hr hh
    exact List.forall_mem_cons.2 ⟨hbefore, ih (htrans.running hr) hbefore⟩

/-! ## Tasks that nobody hears of -/

/-- The task of a session comes to its end by the action, and cannot tell, because nobody keeps the
queue open any more. -/
def EndsUnheard (e : Exchange) (a : ExchangeAction) (id : SessionId) : Prop :=
  e.isHeld = false ∧ (a = .conclude id ∨ a = .notice id)

/-- The task of a session has come to its end unheard. -/
def Unheard (l : List (Exchange × ExchangeAction)) (id : SessionId) : Prop :=
  ∃ p ∈ l, p.1.EndsUnheard p.2 id

/-- As long as the queue is kept open, every task is heard. -/
theorem not_unheard_of_isHeld {e₀ e : Exchange} {l : List (Exchange × ExchangeAction)}
    (h : Past e₀ l e) (hr : e.running = true) (hh : e.isHeld = true) (id : SessionId) :
    ¬Unheard l id := by
  rintro ⟨p, hp, hnot, -⟩
  exact absurd (isHeld_of_past h hr hh p hp) (by simp [hnot])

/-! ## The beginning -/

/-- An exchange begins with the home session and nothing else. -/
theorem eq_of_start {name : String} {permits : Nat} {refusal : Option SessionError} {e : Exchange}
    (h : start name permits refusal = .ok e) :
    e = { registry := .start name 0 ⟨homeConnection, 1⟩ permits
          nextSession := 1
          provider := (({} : Provider).provide (DomainInfo.routePattern name)).2 } := by
  unfold start at h
  split at h
  · exact absurd h (by simp)
  · split at h
    · exact absurd h (by simp)
    · split at h
      · exact absurd h (by simp)
      · split at h
        · exact absurd h (by simp)
        · exact (Except.ok.inj h).symm

/-- An exchange of the home domain alone. -/
def alone : Exchange where
  registry := .start "home" 0 ⟨homeConnection, 1⟩ 4
  nextSession := 1
  provider := (({} : Provider).provide (DomainInfo.routePattern "home")).2

/-- A registry can be started. -/
lemma start_alone : start "home" 4 none = .ok alone := by rfl

/-- At first the home domain has a session and no other domain does. -/
lemma get?_start (name : String) (id : SessionId) (link : Link) (permits : Nat) (d : String) :
    (Registry.start name id link permits).table.get? d
      = if d = name then some (.home id link) else none := by
  rw [Registry.start, Table.get?_insert, Table.get?_empty]

end Exchange
end Switchboard
