import Switchboard.Proofs.Exchange.Transitions
import Switchboard.Proofs.Store.Count

/-!
# The way of a call through the exchange

A call waits in the queue, is taken from it once, and then either has its answer or is forwarded.
What happens to other calls does not touch it.

* `Exchange.CallKept` says that a call is left alone. `callKept_of_step` is about calls that are no
  longer in the queue.
* `Exchange.Waits` is a call in the queue, and `waits_of_step` says that it stays there untouched
  until it is taken.
* `Exchange.Lined` says that the queue holds a call once at most. `Lined.step` keeps it.
-/

namespace Switchboard

/-- Whether a command is the forwarding of a call. -/
def Command.isRouteOf (c : CallId) : Command → Bool
  | .route k _ => k = c
  | _ => false

/-- Whether an action is about a call that has been taken from the queue. -/
def ExchangeAction.concerns (c : CallId) : ExchangeAction → Bool
  | .leave k | .begin k | .settle k _ | .answer k => k = c
  | _ => false

namespace Exchange

/-- What the queue holds of a call. -/
def routes (e : Exchange) (c : CallId) : List Command := e.queue.filter (·.isRouteOf c)

/-- A call is left alone. -/
structure CallKept (e e' : Exchange) (c : CallId) : Prop where
  next : e.nextCall ≤ e'.nextCall := by exact Nat.le_refl _
  forward : e'.forwards.get? c = e.forwards.get? c := by rfl
  slot : e'.calls.get? c = e.calls.get? c := by rfl
  routes : e'.routes c = e.routes c := by rfl

/-- A call waits in the queue. -/
structure Waits (e : Exchange) (c : CallId) (i : Invocation) : Prop where
  lt : c < e.nextCall
  queued : e.routes c = [.route c i]
  slot : e.calls.get? c = some .waiting
  forward : e.forwards.get? c = none

variable {e e' : Exchange} {c : CallId}

/-- A command that is not about a call leaves the number of its requests in the queue as it is. -/
lemma routes_append {x : Command} (h : e'.queue = e.queue ++ [x]) (hx : x.isRouteOf c = false) :
    e'.routes c = e.routes c := by
  rw [routes, routes, h, List.filter_append, List.filter_cons_of_neg (by simp [hx]),
    List.filter_nil, List.append_nil]

lemma callKept_ask (e : Exchange) : e.CallKept e.ask c := by
  unfold ask
  split
  · exact { routes := routes_append rfl rfl }
  · exact {}

/-- A command that is not about a call leaves it alone. -/
lemma callKept_tell {x : Command} (hx : x.isRouteOf c = false) : e.CallKept (e.tell x) c := by
  obtain ⟨h, -⟩ | ⟨h, -⟩ := e.tell_cases x <;> rw [h]
  · exact {}
  · exact { routes := routes_append rfl hx }

lemma callKept_offer (hne : c ≠ e.nextCall) (i : Invocation) : e.CallKept (e.offer i) c := by
  have hslot : ∀ slot, (e.calls.insert e.nextCall slot).get? c = e.calls.get? c := fun slot => by
    rw [Table.get?_insert, if_neg hne]
  obtain ⟨-, h⟩ | ⟨message, h⟩ := e.offer_cases i <;> rw [h]
  · refine { next := Nat.le_succ _, slot := hslot _, routes := routes_append rfl ?_ }
    exact decide_eq_false fun he => hne he.symm
  · exact { next := Nat.le_succ _, slot := hslot _ }

/-- An action that is not about a call and is not the registry's leaves it alone, unless the call
has just come in by it. -/
theorem callKept_of_ne_serve {a : ExchangeAction} (hoffer : ∀ i, e' = e.offer i → c ≠ e.nextCall)
    (ha : a.concerns c = false) (hserve : a ≠ .serve) (h : e.step a = some e') :
    e.CallKept e' c := by
  have hne : ∀ {k : CallId}, a.concerns c = decide (k = c) → c ≠ k := fun hk he => by
    rw [hk, decide_eq_true he.symm] at ha
    exact absurd ha (by simp)
  cases change_of_step h with
  | stopped | served => exact absurd rfl hserve
  | called | invoked => exact callKept_offer (hoffer _ rfl) _
  | asked => exact callKept_ask e
  | discovered | shut | passed => exact { routes := routes_append rfl rfl }
  | left => exact { slot := by rw [Table.get?_modify, if_neg (hne rfl)] }
  | @concluded id domain address outcome =>
    exact { callKept_tell (rfl : (Command.attempted domain id outcome).isRouteOf c = false) with }
  | @noticed id w =>
    exact { callKept_tell (rfl : (Command.lost w.domain id).isRouteOf c = false) with }
  | begun | settled => exact { forward := by rw [Table.get?_insert, if_neg (hne rfl)] }
  | answered =>
    exact { forward := by rw [Table.get?_erase, if_neg (hne rfl)]
            slot := by rw [Table.get?_modify, if_neg (hne rfl)] }
  | shared | released | dialed | connected | unreachable | provided | unprovided | lost | withdrew
  | followed | unpassed | unfollowed | forgot => exact {}

/-! ## The registry's own actions -/

/-- Dismissed commands change nothing but answers. -/
theorem halt_fields (e : Exchange) :
    e.halt.nextCall = e.nextCall ∧ e.halt.forwards = e.forwards ∧ e.halt.registry = e.registry := by
  have hfold : ∀ (l : List Command) (x : Exchange), (l.foldl dismiss x).nextCall = x.nextCall ∧
      (l.foldl dismiss x).forwards = x.forwards ∧
      (l.foldl dismiss x).registry = x.registry := by
    intro l
    induction l with
    | nil => exact fun _ => ⟨rfl, rfl, rfl⟩
    | cons y rest ih =>
      intro x
      obtain ⟨hnext, hforwards, hregistry⟩ := ih (x.dismiss y)
      rw [List.foldl_cons, hnext, hforwards, hregistry]
      cases y <;> exact ⟨rfl, rfl, rfl⟩
  exact hfold e.queue e

lemma slot_dismiss (e : Exchange) {x : Command} (hx : x.isRouteOf c = false) :
    (e.dismiss x).calls.get? c = e.calls.get? c := by
  cases x with
  | route k i =>
    have hne : c ≠ k := fun he => by simp [Command.isRouteOf, he] at hx
    exact (Table.get?_modify ..).trans (if_neg hne)
  | _ => rfl

/-- A registry that stops leaves alone the calls that are not in its queue. -/
lemma callKept_halt (hno : e.routes c = []) : e.CallKept e.halt c := by
  have hfold : ∀ (l : List Command) (x : Exchange), (∀ y ∈ l, y.isRouteOf c = false) →
      (l.foldl dismiss x).calls.get? c = x.calls.get? c := by
    intro l
    induction l with
    | nil => exact fun _ _ => rfl
    | cons y rest ih =>
      intro x hall
      have hrest := ih (x.dismiss y) fun z hz => hall z (List.mem_cons_of_mem y hz)
      exact hrest.trans (slot_dismiss x (hall y List.mem_cons_self))
  have hall : ∀ y ∈ e.queue, y.isRouteOf c = false := fun y hy => by
    have hnot := List.filter_eq_nil_iff.1 hno y hy
    simpa using hnot
  obtain ⟨hnext, hforwards, -⟩ := e.halt_fields
  exact { next := Nat.le_of_eq hnext.symm
          forward := by rw [hforwards]
          slot := hfold e.queue e hall
          routes := hno.symm }

/-- A command that is not a call's leaves the call alone. -/
theorem callKept_served {x : Command} {rest : List Command} (hq : e.queue = x :: rest)
    (hx : x.isRouteOf c = false) (hs : e.Served rest x e') : e.CallKept e' c := by
  have hroutes : ∀ {y : Exchange}, y.queue = rest → y.routes c = e.routes c := fun hy => by
    rw [routes, routes, hy, hq, List.filter_cons_of_neg (by simp [hx])]
  cases hs with
  | @refused k i error =>
    have hne : c ≠ k := fun he => by simp [Command.isRouteOf, he] at hx
    exact { slot := (Table.get?_modify ..).trans (if_neg hne), routes := hroutes rfl }
  | @forwarded k i target link =>
    have hne : c ≠ k := fun he => by simp [Command.isRouteOf, he] at hx
    exact { forward := (Table.get?_insert ..).trans (if_neg hne), routes := hroutes rfl }
  | _ => exact { routes := hroutes rfl }

/-- A call that has been taken from the queue is left alone by all that is not about it. -/
theorem callKept_of_step {a : ExchangeAction} (hoffer : ∀ i, e' = e.offer i → c ≠ e.nextCall)
    (hno : e.routes c = []) (ha : a.concerns c = false) (h : e.step a = some e') :
    e.CallKept e' c := by
  by_cases hserve : a = .serve
  · subst hserve
    obtain ⟨-, ⟨rest, hsuffix, rfl⟩ | ⟨x, rest, hq, hs⟩⟩ := served_of_serve h
    · have hrest : ({ e with queue := rest } : Exchange).routes c = [] := by
        rw [routes, List.filter_eq_nil_iff] at hno ⊢
        exact fun y hy => hno y (hsuffix.subset hy)
      have hk := callKept_halt hrest
      exact { next := hk.next, forward := hk.forward, slot := hk.slot, routes := hno.symm }
    · refine callKept_served hq ?_ hs
      have hnot := List.filter_eq_nil_iff.1 hno x (hq ▸ List.mem_cons_self)
      simpa using hnot
  · exact callKept_of_ne_serve hoffer ha hserve h

/-- A call in the queue stays there untouched, or it is taken. -/
lemma kept_or_taken {a : ExchangeAction} {i : Invocation} (hlt : c < e.nextCall)
    (hqueued : e.routes c = [.route c i]) (ha : a.concerns c = false) (h : e.step a = some e') :
    e.CallKept e' c ∨ (e.nextCall ≤ e'.nextCall ∧ e'.routes c = []) := by
  by_cases hserve : a = .serve
  · subst hserve
    obtain ⟨-, ⟨rest, hsuffix, rfl⟩ | ⟨x, rest, hq, hs⟩⟩ := served_of_serve h
    · exact .inr ⟨Nat.le_of_eq (halt_fields { e with queue := rest }).1.symm, rfl⟩
    · cases hx : x.isRouteOf c with
      | false => exact .inl (callKept_served hq hx hs)
      | true =>
        -- this is the only command of the call
        right
        have hrest : rest.filter (·.isRouteOf c) = [] := by
          rw [routes, hq, List.filter_cons_of_pos hx] at hqueued
          exact (List.cons.inj hqueued).2
        have hfields : e'.queue = rest ∧ e'.nextCall = e.nextCall := by
          cases hs <;> exact ⟨rfl, rfl⟩
        exact ⟨Nat.le_of_eq hfields.2.symm, by rw [routes, hfields.1, hrest]⟩
  · exact .inl (callKept_of_ne_serve (fun _ _ => Nat.ne_of_lt hlt) ha hserve h)

/-- A call that is offered waits in the queue, or has been answered at once. -/
theorem waits_offer (e : Exchange) (i : Invocation) (hno : e.routes e.nextCall = [])
    (hfree : e.forwards.get? e.nextCall = none) :
    (e.offer i).Waits e.nextCall i ∨ (e.offer i).routes e.nextCall = [] := by
  obtain ⟨-, h⟩ | ⟨message, h⟩ := e.offer_cases i <;> rw [h]
  · refine .inl ⟨Nat.lt_succ_self _, ?_, ?_, hfree⟩
    · change (e.queue ++ _).filter _ = _
      rw [List.filter_append, show e.queue.filter _ = [] from hno]
      simp [Command.isRouteOf]
    · exact (Table.get?_insert ..).trans (if_pos rfl)
  · exact .inr hno

/-! ## What is about a call -/

/-- What an action that is about a call does to it. -/
inductive CallMoved (e e' : Exchange) (c : CallId) : ExchangeAction → Prop
  | left (hf : e'.forwards.get? c = e.forwards.get? c) : CallMoved e e' c (.leave c)
  | begun {f : Forward} (hf : e.forwards.get? c = some f) (hstage : f.stage = .ready)
    (hf' : e'.forwards.get? c = some { f with stage := .calling })
    (hs : e'.calls.get? c = e.calls.get? c) : CallMoved e e' c (.begin c)
  | settled {f : Forward} {outcome : Except SessionError CallResult}
    (hf : e.forwards.get? c = some f) (hstage : f.stage = .calling)
    (hf' : e'.forwards.get? c = some { f with stage := .answering (replyOf outcome) })
    (hs : e'.calls.get? c = e.calls.get? c) : CallMoved e e' c (.settle c outcome)
  | answered {f : Forward} {reply : Reply} (hf : e.forwards.get? c = some f)
    (hstage : f.stage = .answering reply) (hf' : e'.forwards.get? c = none)
    (hs : e'.calls.get? c = (e.calls.get? c).map (·.answer reply)) : CallMoved e e' c (.answer c)

/-- An action about a call moves this call and changes neither the queue nor the next number. -/
lemma callMoved_of_step {a : ExchangeAction} (ha : a.concerns c = true)
    (h : e.step a = some e') :
    e.CallMoved e' c a ∧ e'.nextCall = e.nextCall ∧ e'.queue = e.queue := by
  cases change_of_step h with
  | left =>
    cases of_decide_eq_true ha
    exact ⟨.left rfl, rfl, rfl⟩
  | begun hf hstage =>
    cases of_decide_eq_true ha
    exact ⟨.begun hf hstage ((Table.get?_insert ..).trans (if_pos rfl)) rfl, rfl, rfl⟩
  | settled hf hstage =>
    cases of_decide_eq_true ha
    exact ⟨.settled hf hstage ((Table.get?_insert ..).trans (if_pos rfl)) rfl, rfl, rfl⟩
  | answered hf hstage =>
    cases of_decide_eq_true ha
    refine ⟨.answered hf hstage ?_ ?_, rfl, rfl⟩
    · exact (Table.get?_erase ..).trans (if_pos rfl)
    · exact (Table.get?_modify ..).trans (if_pos rfl)
  | _ => exact absurd ha (by simp [ExchangeAction.concerns])

/-- Names of calls are given out in ascending order. -/
theorem nextCall_of_step {a : ExchangeAction} (h : e.step a = some e') :
    e.nextCall ≤ e'.nextCall := by
  by_cases hserve : a = .serve
  · subst hserve
    obtain ⟨-, ⟨rest, -, rfl⟩ | ⟨x, rest, -, hs⟩⟩ := served_of_serve h
    · exact Nat.le_of_eq (halt_fields { e with queue := rest }).1.symm
    · cases hs <;> exact Nat.le_refl _
  · cases ha : a.concerns (e.nextCall + 1) with
    | false =>
      exact (callKept_of_ne_serve (fun _ _ => Nat.succ_ne_self _) ha hserve h).next
    | true => exact Nat.le_of_eq (callMoved_of_step ha h).2.1.symm

/-- The queue holds a call once at most, and none that has been forwarded. Calls that are yet to
come have left no trace. -/
structure Lined (e : Exchange) : Prop where
  queued : ∀ c, e.routes c = [] ∨ ∃ i, e.routes c = [.route c i] ∧ e.forwards.get? c = none
  unused : ∀ c, e.nextCall ≤ c → e.routes c = [] ∧ e.forwards.get? c = none

namespace Lined

variable (o : e.Lined)
include o

/-- A call that has been forwarded has left the queue. -/
theorem routes_of_forward {f : Forward} (hf : e.forwards.get? c = some f) : e.routes c = [] := by
  rcases o.queued c with hr | ⟨i, -, hnone⟩
  · exact hr
  · exact absurd (hnone.symm.trans hf) (by simp)

/-- Only calls that have come in are forwarded. -/
theorem lt_of_forward {f : Forward} (hf : e.forwards.get? c = some f) : c < e.nextCall := by
  by_contra hc
  exact absurd ((o.unused c (Nat.le_of_not_lt hc)).2.symm.trans hf) (by simp)

/-- The command that is next is all that the queue holds of its call. -/
theorem routes_of_head {i : Invocation} {rest : List Command} (hq : e.queue = .route c i :: rest) :
    e.routes c = [.route c i] := by
  have hhead : e.routes c = .route c i :: rest.filter (·.isRouteOf c) := by
    rw [Exchange.routes, hq, List.filter_cons_of_pos (by simp [Command.isRouteOf])]
  rcases o.queued c with hr | ⟨j, hr, -⟩
  · exact absurd (hhead.symm.trans hr) (by simp)
  · rw [hhead] at hr ⊢
    rw [(List.cons.inj hr).2]

/-- Calls are in one place each after every step. -/
lemma step {a : ExchangeAction} (h : e.step a = some e') : e'.Lined := by
  have hnext := nextCall_of_step h
  refine ⟨fun c => ?_, fun c hc => ?_⟩
  · cases ha : a.concerns c with
    | true =>
      obtain ⟨hm, -, hq⟩ := callMoved_of_step ha h
      have hr' : e'.routes c = e.routes c := by rw [Exchange.routes, hq, Exchange.routes]
      rw [hr']
      cases hm with
      | left hf' =>
        rw [hf']
        exact o.queued c
      | begun hf | settled hf | answered hf => exact .inl (o.routes_of_forward hf)
    | false =>
      -- the call that is just offered is the only one that comes anew
      by_cases hoffer : c = e.nextCall ∧ ∃ i, e' = e.offer i
      · obtain ⟨rfl, i, rfl⟩ := hoffer
        obtain ⟨hno, hfree⟩ := o.unused e.nextCall (Nat.le_refl _)
        obtain w | hr := waits_offer e i hno hfree
        · exact .inr ⟨i, w.queued, w.forward⟩
        · exact .inl hr
      · have hne : ∀ i, e' = e.offer i → c ≠ e.nextCall := fun i hi he => hoffer ⟨he, i, hi⟩
        rcases o.queued c with hr | ⟨i, hr, hf⟩
        · exact .inl ((callKept_of_step hne hr ha h).routes.trans hr)
        · -- a call that waits has its number already
          have hlt : c < e.nextCall := by
            by_contra hc
            exact absurd ((o.unused c (Nat.le_of_not_lt hc)).1.symm.trans hr) (by simp)
          obtain k | ⟨-, hr'⟩ := kept_or_taken hlt hr ha h
          · exact .inr ⟨i, k.routes.trans hr, k.forward.trans hf⟩
          · exact .inl hr'
  · obtain ⟨hr, hf⟩ := o.unused c (Nat.le_trans hnext hc)
    cases ha : a.concerns c with
    | false =>
      have hne : ∀ i, e' = e.offer i → c ≠ e.nextCall := fun i hi he => by
        rw [he, hi] at hc
        exact Nat.not_succ_le_self _ hc
      have hk := callKept_of_step hne hr ha h
      exact ⟨hk.routes.trans hr, hk.forward.trans hf⟩
    | true =>
      obtain ⟨hm, -, hq⟩ := callMoved_of_step ha h
      have hr' : e'.routes c = [] := by
        rw [Exchange.routes, hq]
        exact hr
      cases hm with
      | left hf' => exact ⟨hr', hf'.trans hf⟩
      | begun hf' | settled hf' | answered hf' => exact absurd (hf.symm.trans hf') (by simp)

end Lined

/-- An exchange begins with an empty queue. -/
theorem lined_of_start {name : String} {permits : Nat} {refusal : Option SessionError}
    (h : start name permits refusal = .ok e) : e.Lined := by
  rw [eq_of_start h]
  exact ⟨fun _ => .inl rfl, fun _ _ => ⟨rfl, rfl⟩⟩

/-- The call that the registry forwards next. -/
theorem serve_route {i : Invocation} {rest : List Command} {target : Target} {link : Link}
    (hr : e.running = true) (hq : e.queue = .route c i :: rest)
    (ht : parseTarget i.procedure = .ok target)
    (hl : e.registry.route? target.domain = some link) (hp : 0 < e.registry.permits) :
    e.serve = some
      { e.taken rest with
        registry := { e.registry with permits := e.registry.permits - 1 }
        forwards := e.forwards.insert c
          { connection := link.connection, procedure := target.procedure,
            arguments := ⟨i.args, i.kwargs⟩ } } := by
  obtain ⟨n, hn⟩ := Nat.exists_eq_succ_of_ne_zero (Nat.ne_of_gt hp)
  refine (serve_cons hr hq (by simp)).trans ?_
  simp only [Registry.react, Registry.route, ht, hl, hn]
  rfl

end Exchange
end Switchboard
