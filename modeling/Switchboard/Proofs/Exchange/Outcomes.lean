import Switchboard.Proofs.Exchange.Deeds

/-!
# What becomes of a call

A call can be refused at the door, dropped when the registry stops, refused when the registry comes
to it, or forwarded and answered with what comes of it. It ends in one of these ways, and once.

* `Exchange.Course` is how far a call has come, with its record. `Course.step` carries it over every
  action.
* `Course.ends` says that a call can always be brought to its end.
* `resolved_of_past` is about every call in every run.
-/

namespace Switchboard
namespace Exchange

variable {e e' e₀ : Exchange} {a : ExchangeAction} {c : CallId} {i : Invocation}
  {l : List (Exchange × ExchangeAction)}

/-! ## Calls that are over -/

/-- A call that has come in and is neither in the queue nor on its way. -/
structure Gone (e : Exchange) (c : CallId) : Prop where
  lt : c < e.nextCall
  routes : e.routes c = []
  forward : e.forwards.get? c = none

/-- Nothing is done about it any more. -/
theorem Gone.step (g : e.Gone c) (h : e.step a = some e') : e'.Gone c ∧ e.deeds c a = [] := by
  have hne : c ≠ e.nextCall := Nat.ne_of_lt g.lt
  refine ⟨?_, deeds_of_forwards (fun hc => absurd hc hne) (fun _ => handled_of_routes g.routes)
    g.forward h⟩
  cases ha : a.concerns c with
  | false =>
    have hk := callKept_of_step (fun _ _ => hne) g.routes ha h
    exact ⟨Nat.lt_of_lt_of_le g.lt hk.next, hk.routes.trans g.routes, hk.forward.trans g.forward⟩
  | true =>
    obtain ⟨hm, hnext, hq⟩ := callMoved_of_step ha h
    cases hm with
    | left hf =>
      refine ⟨hnext ▸ g.lt, ?_, hf.trans g.forward⟩
      rw [Exchange.routes, hq]
      exact g.routes
    | begun hf | settled hf | answered hf => exact absurd (g.forward.symm.trans hf) (by simp)

/-! ## Calls that are on their way -/

/-- What becomes of a forwarded call by an action, with what is done about it. -/
inductive Onward (e' : Exchange) (c : CallId) (f : Forward) : List Deed → Prop
  | kept (hf : e'.forwards.get? c = some f) : Onward e' c f []
  | made (hstage : f.stage = .ready)
    (hf : e'.forwards.get? c = some { f with stage := .calling }) :
    Onward e' c f [.made f.connection f.procedure f.arguments]
  | returned {outcome : Except SessionError CallResult} (hstage : f.stage = .calling)
    (hf : e'.forwards.get? c = some { f with stage := .answering (replyOf outcome) }) :
    Onward e' c f [.returned outcome]
  | told {reply : Reply} (hstage : f.stage = .answering reply) (g : e'.Gone c) :
    Onward e' c f [.told reply]

/-- A forwarded call is where it was after a step, or one stage further. -/
lemma onward_of_step (o : e.Lined) {f : Forward} (hf : e.forwards.get? c = some f)
    (h : e.step a = some e') : e'.Onward c f (e.deeds c a) := by
  have hroutes := o.routes_of_forward hf
  have hlt := o.lt_of_forward hf
  cases ha : a.concerns c with
  | false =>
    have hne : c ≠ e.nextCall := Nat.ne_of_lt hlt
    have hk := callKept_of_step (fun _ _ => hne) hroutes ha h
    rw [deeds_of_not_concerns (fun hc => absurd hc hne) (fun _ => handled_of_routes hroutes) ha]
    exact .kept (hk.forward.trans hf)
  | true =>
    obtain ⟨hm, hnext, hq⟩ := callMoved_of_step ha h
    cases hm with
    | left hf' => exact .kept (hf'.trans hf)
    | begun hf₀ hstage hf' =>
      obtain rfl := Option.some.inj (hf.symm.trans hf₀)
      rw [deeds_begin hf]
      exact .made hstage hf'
    | settled hf₀ hstage hf' =>
      obtain rfl := Option.some.inj (hf.symm.trans hf₀)
      rw [deeds_settle]
      exact .returned hstage hf'
    | @answered f₀ reply hf₀ hstage hf' =>
      obtain rfl := Option.some.inj (hf.symm.trans hf₀)
      rw [deeds_answer hf hstage]
      refine .told hstage ⟨hnext ▸ hlt, ?_, hf'⟩
      rw [routes, hq]
      exact hroutes

/-- How far a forwarded call has come, with what has been done about it since. -/
inductive Underway (e : Exchange) (c : CallId) (connection : ConnectionId) (procedure : String)
    (arguments : CallResult) : List Deed → Prop
  | ready (hf : e.forwards.get? c = some ⟨connection, procedure, arguments, .ready⟩) :
    Underway e c connection procedure arguments []
  | calling (hf : e.forwards.get? c = some ⟨connection, procedure, arguments, .calling⟩) :
    Underway e c connection procedure arguments [.made connection procedure arguments]
  | answering {outcome : Except SessionError CallResult}
    (hf : e.forwards.get? c
      = some ⟨connection, procedure, arguments, .answering (replyOf outcome)⟩) :
    Underway e c connection procedure arguments
      [.made connection procedure arguments, .returned outcome]
  | answered {outcome : Except SessionError CallResult} (g : e.Gone c) :
    Underway e c connection procedure arguments
      [.made connection procedure arguments, .returned outcome, .told (replyOf outcome)]

/-- A call that is under way stays so, or is answered, with every step. -/
lemma Underway.step (o : e.Lined) {connection : ConnectionId} {procedure : String}
    {arguments : CallResult} {ds : List Deed}
    (u : e.Underway c connection procedure arguments ds) (h : e.step a = some e') :
    e'.Underway c connection procedure arguments (ds ++ e.deeds c a) := by
  cases u with
  | ready hf =>
    -- from each stage there is one way on
    have hmove := onward_of_step o hf h
    generalize e.deeds c a = new at hmove ⊢
    cases hmove with
    | kept hf' => exact .ready hf'
    | made _ hf' => exact .calling hf'
    | returned hstage | told hstage => exact absurd hstage (by simp)
  | calling hf =>
    have hmove := onward_of_step o hf h
    generalize e.deeds c a = new at hmove ⊢
    cases hmove with
    | kept hf' => exact .calling hf'
    | returned _ hf' => exact .answering hf'
    | made hstage | told hstage => exact absurd hstage (by simp)
  | answering hf =>
    have hmove := onward_of_step o hf h
    generalize e.deeds c a = new at hmove ⊢
    cases hmove with
    | kept hf' => exact .answering hf'
    | told hstage g =>
      rw [← ForwardStage.answering.inj hstage]
      exact .answered g
    | made hstage | returned hstage => exact absurd hstage (by simp)
  | answered g =>
    obtain ⟨g', hdeeds⟩ := g.step h
    rw [hdeeds]
    exact .answered g'

/-! ## Calls in the queue -/

/-- Only the registry takes commands from the queue, and only the registry stops. -/
theorem queue_of_step (ha : a.isServe = false) (h : e.step a = some e') :
    e'.running = e.running ∧ ∃ extra, e'.queue = e.queue ++ extra := by
  have hsame : e.queue = e.queue ++ [] := (List.append_nil _).symm
  -- only service takes from the queue
  cases change_of_step h with
  | stopped | served => exact absurd ha (by simp [ExchangeAction.isServe])
  | discovered | shut | passed => exact ⟨rfl, _, rfl⟩
  | @called i | @invoked i =>
    obtain ⟨-, hoffer⟩ | ⟨message, hoffer⟩ := e.offer_cases i <;> rw [hoffer]
    · exact ⟨rfl, _, rfl⟩
    · exact ⟨rfl, [], hsame⟩
  | asked =>
    unfold ask
    split
    · exact ⟨rfl, _, rfl⟩
    · exact ⟨rfl, [], hsame⟩
  | @concluded id domain address outcome =>
    obtain ⟨htell, -⟩ | ⟨htell, -⟩ :=
      tell_cases { e with dials := e.dials.erase id } (.attempted domain id outcome) <;> rw [htell]
    · exact ⟨rfl, [], hsame⟩
    · exact ⟨rfl, _, rfl⟩
  | @noticed id w =>
    obtain ⟨htell, -⟩ | ⟨htell, -⟩ :=
      tell_cases { e with watches := e.watches.erase id } (.lost w.domain id) <;> rw [htell]
    · exact ⟨rfl, [], hsame⟩
    · exact ⟨rfl, _, rfl⟩
  | shared | released | left | dialed | connected | unreachable | provided | unprovided | lost
  | withdrew | begun | settled | answered | followed | unpassed | unfollowed | forgot =>
    exact ⟨rfl, [], hsame⟩

/-- A registry that has stopped stays so. -/
theorem running_of_step (hr : e.running = false) (h : e.step a = some e') :
    e'.running = false := by
  apply Bool.eq_false_iff.2
  intro hr'
  exact absurd (hr.symm.trans ((transition_of_step h).running hr')) (by simp)

/-- The answer to a command takes it from the queue and does not stop the registry. -/
lemma Served.kept {x : Command} {rest : List Command} (hs : e.Served rest x e') :
    e'.queue = rest ∧ e'.running = e.running := by
  cases hs <;> exact ⟨rfl, rfl⟩

/-- A call that is in the queue is there once, and not on its way. -/
theorem Lined.of_mem (o : e.Lined) (h : .route c i ∈ e.queue) :
    c < e.nextCall ∧ e.routes c = [.route c i] ∧ e.forwards.get? c = none := by
  have hmem : .route c i ∈ e.routes c := List.mem_filter.2 ⟨h, decide_eq_true rfl⟩
  refine ⟨?_, ?_⟩
  · by_contra hlt
    rw [(o.unused c (Nat.le_of_not_lt hlt)).1] at hmem
    exact absurd hmem (by simp)
  · rcases o.queued c with hr | ⟨j, hr, hf⟩
    · rw [hr] at hmem
      exact absurd hmem (by simp)
    · rw [hr, List.mem_singleton] at hmem
      rw [hmem]
      exact ⟨hr, hf⟩

/-- What becomes of a call by an action that is in the queue behind the commands `ahead`, with what
is done about it. -/
inductive Taken (e : Exchange) (a : ExchangeAction) (e' : Exchange) (c : CallId) (i : Invocation)
    (ahead behind : List Command) : List Deed → Prop
  /-- More commands come. -/
  | kept {extra : List Command} (ha : a.isServe = false) (hr : e'.running = true)
    (hq : e'.queue = ahead ++ .route c i :: (behind ++ extra)) : Taken e a e' c i ahead behind []
  /-- The first of the commands ahead is handled. -/
  | nearer {x : Command} {rest : List Command} (ha : a = .serve) (hahead : ahead = x :: rest)
    (hr : e'.running = true) (hq : e'.queue = rest ++ .route c i :: behind) :
    Taken e a e' c i ahead behind []
  /-- The registry stops. -/
  | dropped {rest : List Command} (ha : a = .serve) (hahead : ahead = .stop :: rest)
    (hr : e'.running = false) (g : e'.Gone c) : Taken e a e' c i ahead behind [.dropped]
  | refused {reason : String} (ha : a = .serve) (hahead : ahead = [])
    (hj : e.registry.Judges i.procedure (.refused reason)) (g : e'.Gone c) :
    Taken e a e' c i ahead behind [.judged e.registry, .told (.error reason)]
  | forwarded {connection : ConnectionId} {procedure : String} (ha : a = .serve)
    (hahead : ahead = []) (hj : e.registry.Judges i.procedure (.forwarded connection procedure))
    (hf : e'.forwards.get? c = some ⟨connection, procedure, ⟨i.args, i.kwargs⟩, .ready⟩) :
    Taken e a e' c i ahead behind [.judged e.registry]

/-- The registry comes to a call. -/
lemma taken_of_head (o : e.Lined) (hr : e.running = true) {behind : List Command}
    (hq : e.queue = .route c i :: behind) (h : e.step .serve = some e') :
    e.Taken .serve e' c i [] behind (e.deeds c .serve) := by
  have hroute : (Command.route c i).isRouteOf c = true := decide_eq_true rfl
  have hfilter : behind.filter (·.isRouteOf c) = [] := by
    have hhead := o.routes_of_head hq
    rw [routes, hq, List.filter_cons_of_pos hroute] at hhead
    exact (List.cons.inj hhead).2
  obtain ⟨hlt, -, hnone⟩ := o.of_mem (hq ▸ List.mem_cons_self : .route c i ∈ e.queue)
  have hdeeds : e.deeds c .serve
      = .judged e.registry :: (e.registry.route c i).2.filterMap (·.reply? c) := by
    change e.handled c = _
    rw [handled_cons hq (by simp), if_pos hroute]
    rfl
  obtain rfl := Option.some.inj ((serve_cons hr hq (by simp)).symm.trans h)
  rw [hdeeds]
  change e.Taken .serve (e.acted behind (e.registry.route c i)) c i [] behind _
  rcases e.acted_route behind c i with
    ⟨reason, hj, hreplies, hacted⟩ | ⟨connection, procedure, hj, hreplies, hacted⟩
  · rw [hreplies, hacted]
    exact .refused rfl rfl hj ⟨hlt, hfilter, hnone⟩
  · rw [hreplies, hacted]
    exact .forwarded rfl rfl hj ((Table.get?_insert ..).trans (if_pos rfl))

/-- The registry handles a command that is ahead of a call. -/
lemma taken_of_ahead (o : e.Lined) (hr : e.running = true) {x : Command}
    {ahead behind : List Command} (hq : e.queue = x :: ahead ++ .route c i :: behind)
    (h : e.step .serve = some e') :
    e.Taken .serve e' c i (x :: ahead) behind (e.deeds c .serve) := by
  obtain ⟨hlt, hroutes, hnone⟩ := o.of_mem (show .route c i ∈ e.queue by rw [hq]; simp)
  by_cases hx : x = .stop
  · subst hx
    have hrest : (ahead ++ .route c i :: behind).filter (·.isRouteOf c) = [.route c i] := by
      rwa [routes, hq, List.cons_append, List.filter_cons_of_neg (by simp [Command.isRouteOf])]
        at hroutes
    have hdeeds : e.deeds c .serve = [.dropped] := by
      change e.handled c = _
      rw [handled_stop hq]
      exact congrArg (List.map _) hrest
    obtain rfl := Option.some.inj ((serve_stop hr hq).symm.trans h)
    obtain ⟨hnext, hforwards, -⟩ :=
      halt_fields { e with queue := ahead ++ .route c i :: behind }
    rw [hdeeds]
    refine .dropped rfl rfl rfl ⟨Nat.lt_of_lt_of_eq hlt hnext.symm, rfl, ?_⟩
    exact (congrArg (·.get? c) hforwards).trans hnone
  · have hroute : x.isRouteOf c = false := by
      -- the call is in the queue only once
      cases hroute : x.isRouteOf c with
      | false => rfl
      | true =>
        rw [routes, hq, List.cons_append, List.filter_cons_of_pos hroute, List.filter_append,
          List.filter_cons_of_pos (show (Command.route c i).isRouteOf c = true from
            decide_eq_true rfl)] at hroutes
        have hlength := congrArg List.length hroutes
        rw [List.length_cons, List.length_append, List.length_cons, List.length_singleton]
          at hlength
        omega
    have hdeeds : e.deeds c .serve = [] := handled_of_not_route hq hx hroute
    obtain rfl := Option.some.inj ((serve_cons hr hq hx).symm.trans h)
    obtain ⟨hqueue, hrunning⟩ := (served_react e (ahead ++ .route c i :: behind) hx).kept
    rw [hdeeds]
    exact .nearer rfl rfl (hrunning.trans hr) hqueue

/-- A call in the queue moves up, or is judged or dropped, with every step. -/
lemma taken_of_step (o : e.Lined) (hr : e.running = true) {ahead behind : List Command}
    (hq : e.queue = ahead ++ .route c i :: behind) (h : e.step a = some e') :
    e.Taken a e' c i ahead behind (e.deeds c a) := by
  cases hserve : a.isServe with
  | false =>
    obtain ⟨hlt, -, hnone⟩ := o.of_mem (show .route c i ∈ e.queue by rw [hq]; simp)
    obtain ⟨hrunning, extra, hextra⟩ := queue_of_step hserve h
    rw [deeds_of_forwards (fun hc => absurd hc (Nat.ne_of_lt hlt))
      (fun ha => absurd (hserve.symm.trans ha) (by simp)) hnone h]
    exact .kept hserve (hrunning.trans hr) (by rw [hextra, hq, List.append_assoc, List.cons_append])
  | true =>
    obtain rfl := ExchangeAction.isServe_iff.1 hserve
    cases ahead with
    | nil => exact taken_of_head o hr hq h
    | cons x ahead => exact taken_of_ahead o hr hq h

/-! ## The course of a call -/

/-- An exchange that takes another call: it runs, its queue is kept open, and there is room. -/
structure Admits (m : Exchange) : Prop where
  running : m.running = true
  held : m.isHeld = true
  room : m.queue.length < capacity

/-- How often the registry has handled a command. -/
def serves (l : List (Exchange × ExchangeAction)) : Nat := l.countP (·.2.isServe)

/-- How far the call `c` has come, an invocation `i` that came in when the exchange was `m`, with
what has been done about it. `since` has happened since. -/
inductive Course (e m : Exchange) (since : List (Exchange × ExchangeAction)) (c : CallId)
    (i : Invocation) : List Deed → Prop
  /-- The registry had stopped, or nothing kept its queue open any more. -/
  | closed (hm : m.running = false ∨ m.isHeld = false) (g : e.Gone c) :
    Course e m since c i [.told (.error "session registry is no longer running")]
  | full (hr : m.running = true) (hh : m.isHeld = true) (hfull : capacity ≤ m.queue.length)
    (g : e.Gone c) : Course e m since c i [.told (.error "too many forwarded calls in flight")]
  /-- It is in the queue. The commands ahead of it and those that have been handled since are the
  ones that it found there. -/
  | queued (hm : m.Admits) {ahead behind : List Command} (hr : e.running = true)
    (hq : e.queue = ahead ++ .route c i :: behind)
    (hahead : ahead.length + serves since = m.queue.length) : Course e m since c i []
  /-- The registry has stopped before it came to it. -/
  | dropped (hm : m.Admits) {s : Exchange} {rest : List Command} (hs : (s, .serve) ∈ since)
    (hq : s.queue = .stop :: rest) (hc : .route c i ∈ rest) (hr : e.running = false)
    (g : e.Gone c) : Course e m since c i [.dropped]
  /-- The registry has come to it and refused it. -/
  | refused (hm : m.Admits) {r : Registry} {reason : String}
    (hj : r.Judges i.procedure (.refused reason)) (g : e.Gone c) :
    Course e m since c i [.judged r, .told (.error reason)]
  /-- The registry has come to it and forwarded it. -/
  | forwarded (hm : m.Admits) {r : Registry} {connection : ConnectionId} {procedure : String}
    (hj : r.Judges i.procedure (.forwarded connection procedure)) {ds : List Deed}
    (u : e.Underway c connection procedure ⟨i.args, i.kwargs⟩ ds) :
    Course e m since c i (.judged r :: ds)

variable {m : Exchange} {since : List (Exchange × ExchangeAction)} {ds : List Deed}

lemma serves_cons (e : Exchange) (a : ExchangeAction) (l : List (Exchange × ExchangeAction)) :
    serves ((e, a) :: l) = serves l + a.isServe.toNat := by
  rw [serves, List.countP_cons]
  cases a.isServe <;> rfl

/-- One action takes a call on its course. -/
theorem Course.step (k : e.Course m since c i ds) (o : e.Lined) (h : e.step a = some e') :
    e'.Course m ((e, a) :: since) c i (ds ++ e.deeds c a) := by
  cases k with
  | closed hm g =>
    obtain ⟨g', hdeeds⟩ := g.step h
    rw [hdeeds]
    exact .closed hm g'
  | full hr hh hfull g =>
    obtain ⟨g', hdeeds⟩ := g.step h
    rw [hdeeds]
    exact .full hr hh hfull g'
  | @queued hm ahead behind hr hq hahead =>
    -- a call that waits in the queue is the only one whose course is open
    have htaken := taken_of_step o hr hq h
    generalize e.deeds c a = new at htaken ⊢
    cases htaken with
    | kept ha hr' hq' =>
      refine .queued hm hr' hq' ?_
      rw [serves_cons, ha]
      exact hahead
    | nearer ha hx hr' hq' =>
      refine .queued hm hr' hq' ?_
      rw [hx, List.length_cons] at hahead
      rw [serves_cons, ha, ← hahead, ExchangeAction.isServe, Bool.toNat_true]
      omega
    | dropped ha hx hr' g =>
      subst ha hx
      exact .dropped hm List.mem_cons_self hq (by simp) hr' g
    | refused _ _ hj g => exact .refused hm hj g
    | forwarded _ _ hj hf => exact .forwarded hm hj (.ready hf)
  | dropped hm hs hq hc hr g =>
    obtain ⟨g', hdeeds⟩ := g.step h
    rw [hdeeds]
    exact .dropped hm (List.mem_cons_of_mem _ hs) hq hc (running_of_step hr h) g'
  | refused hm hj g =>
    obtain ⟨g', hdeeds⟩ := g.step h
    rw [hdeeds]
    exact .refused hm hj g'
  | forwarded hm hj u => exact .forwarded hm hj (u.step o h)

/-! ### A call comes in -/

/-- A call is refused at once when the registry has stopped or nobody holds its queue. -/
lemma offer_of_closed (hm : m.running = false ∨ m.isHeld = false) (i : Invocation) :
    m.offer i = { m with
      nextCall := m.nextCall + 1
      calls := m.calls.insert m.nextCall
        (.answered (.error "session registry is no longer running")) } := by
  have hclosed : (!m.running || !m.isHeld) = true := by
    rcases hm with h | h <;> simp [h]
  simp only [offer, hclosed, if_true]
  rfl

/-- A call is refused at once when the queue is full. -/
lemma offer_of_full (hr : m.running = true) (hh : m.isHeld = true)
    (hfull : capacity ≤ m.queue.length) (i : Invocation) :
    m.offer i = { m with
      nextCall := m.nextCall + 1
      calls := m.calls.insert m.nextCall
        (.answered (.error "too many forwarded calls in flight")) } := by
  have hfull' : m.isFull = true := decide_eq_true hfull
  simp only [offer, hr, hh, hfull']
  rfl

/-- A call that is admitted is put at the end of the queue. -/
lemma Admits.offer (hm : m.Admits) (i : Invocation) :
    m.offer i = { m with
      nextCall := m.nextCall + 1
      calls := m.calls.insert m.nextCall .waiting
      queue := m.queue ++ [.route m.nextCall i] } := by
  have hfull : m.isFull = false := decide_eq_false (Nat.not_le_of_lt hm.room)
  simp only [Exchange.offer, hm.running, hm.held, hfull]
  rfl

/-- A call that is refused at the door is over. -/
lemma gone_of_offer (o : m.Lined) {reply : Reply}
    (h : m.offer i = { m with
      nextCall := m.nextCall + 1
      calls := m.calls.insert m.nextCall (.answered reply) }) :
    (m.offer i).Gone m.nextCall ∧ m.greeted m.nextCall i = [.told reply] ∧
      (m.offer i).calls.get? m.nextCall = some (.answered reply) := by
  obtain ⟨hroutes, hforward⟩ := o.unused m.nextCall (Nat.le_refl _)
  have hslot : (m.offer i).calls.get? m.nextCall = some (.answered reply) := by
    rw [h]
    exact (Table.get?_insert ..).trans (if_pos rfl)
  refine ⟨?_, ?_, hslot⟩
  · rw [h]
    exact ⟨Nat.lt_succ_self _, hroutes, hforward⟩
  · simp only [greeted, slot, hslot, if_true]
    rfl

/-- A call that comes in begins its course. -/
theorem course_of_offer (o : m.Lined) (ha : a.offers? = some i) (h : m.step a = some e) :
    e.Course m [] m.nextCall i (m.deeds m.nextCall a) ∧
      e.calls.get? m.nextCall = some (Deed.heard (m.deeds m.nextCall a)) := by
  have he : e = m.offer i ∧ m.deeds m.nextCall a = m.greeted m.nextCall i := by
    cases change_of_step h with
    | called | invoked =>
      obtain rfl := Option.some.inj ha
      exact ⟨rfl, rfl⟩
    | _ => exact absurd ha (by simp [ExchangeAction.offers?])
  obtain ⟨rfl, hdeeds⟩ := he
  rw [hdeeds]
  -- refused when closed, refused when full, or queued
  by_cases hclosed : m.running = false ∨ m.isHeld = false
  · obtain ⟨g, hgreeted, hslot⟩ := gone_of_offer o (offer_of_closed hclosed i)
    rw [hgreeted]
    exact ⟨.closed hclosed g, hslot⟩
  · rw [not_or, Bool.not_eq_false, Bool.not_eq_false] at hclosed
    obtain ⟨hr, hh⟩ := hclosed
    by_cases hfull : capacity ≤ m.queue.length
    · obtain ⟨g, hgreeted, hslot⟩ := gone_of_offer o (offer_of_full hr hh hfull i)
      rw [hgreeted]
      exact ⟨.full hr hh hfull g, hslot⟩
    · have hm : m.Admits := ⟨hr, hh, Nat.lt_of_not_le hfull⟩
      have hoffer := hm.offer i
      have hslot : (m.offer i).calls.get? m.nextCall = some .waiting := by
        rw [hoffer]
        exact (Table.get?_insert ..).trans (if_pos rfl)
      have hgreeted : m.greeted m.nextCall i = [] := by
        simp only [greeted, slot, hslot, if_true]
        rfl
      rw [hgreeted]
      refine ⟨?_, hslot⟩
      rw [hoffer]
      exact .queued hm hr rfl rfl

/-! ## The end of a call -/

/-- Whether an action takes the call `c` further: the registry handles its next command, or the call
is made, returns `outcome`, and is answered. -/
def Furthers (c : CallId) (outcome : Except SessionError CallResult) : ExchangeAction → Prop
  | .serve => True
  | .begin k | .answer k => k = c
  | .settle k o => k = c ∧ o = outcome
  | _ => False

/-- The call `c` can come to its end in so many actions that take it further, whatever comes of it
where it is made. -/
def Ends (e : Exchange) (c : CallId) (outcome : Except SessionError CallResult) (n : Nat)
    (ds : List Deed) : Prop :=
  ∃ own e', Past e own e' ∧ (∀ p ∈ own, Furthers c outcome p.2) ∧ own.length ≤ n ∧
    (ds ++ record own c).countP Deed.isEnd = 1

section ends

variable {outcome : Except SessionError CallResult} {n : Nat}

lemma ends_now (h : ds.countP Deed.isEnd = 1) : e.Ends c outcome n ds := by
  refine ⟨[], e, .started, by simp, Nat.zero_le n, ?_⟩
  rwa [record, List.reverse_nil, List.flatMap_nil, List.append_nil]

/-- A call that ends after a step of its own ends with one step more. -/
lemma Ends.of_step (hs : e.step a = some e') (ha : Furthers c outcome a)
    (h : e'.Ends c outcome n (ds ++ e.deeds c a)) : e.Ends c outcome (n + 1) ds := by
  obtain ⟨own, e'', hpast, hown, hlength, hcount⟩ := h
  refine ⟨own ++ [(e, a)], e'', hpast.cons hs, ?_, ?_, ?_⟩
  · intro p hp
    rcases List.mem_append.1 hp with hp | hp
    · exact hown p hp
    · rw [List.mem_singleton.1 hp]
      exact ha
  · rw [List.length_append, List.length_singleton]
    exact Nat.succ_le_succ hlength
  · have hrecord : record [(e, a)] c = e.deeds c a := List.append_nil _
    rwa [record_append, hrecord, ← List.append_assoc]

lemma Ends.mono {n' : Nat} (h : e.Ends c outcome n ds) (hn : n ≤ n') :
    e.Ends c outcome n' ds := by
  obtain ⟨own, e', hpast, hown, hlength, hcount⟩ := h
  exact ⟨own, e', hpast, hown, Nat.le_trans hlength hn, hcount⟩

variable {f : Forward} (hf : e.forwards.get? c = some f) (hds : ds.countP Deed.isEnd = 0)
include hf hds

/-- A call whose reply is there ends with one step. -/
lemma ends_of_answering {reply : Reply} (hstage : f.stage = .answering reply) :
    e.Ends c outcome 1 ds := by
  have hs : ∃ e', e.step (.answer c) = some e' := by
    obtain ⟨connection, procedure, arguments, stage⟩ := f
    obtain rfl : stage = .answering reply := hstage
    simp only [step, answer, hf]
    exact ⟨_, rfl⟩
  obtain ⟨e', hs⟩ := hs
  refine .of_step hs rfl (ends_now ?_)
  rw [deeds_answer hf hstage, List.countP_append, hds]
  rfl

/-- A call that has been made ends with its outcome and its answer. -/
lemma ends_of_calling (hstage : f.stage = .calling) : e.Ends c outcome 2 ds := by
  have hs : e.step (.settle c outcome) = some { e with
      forwards := e.forwards.insert c { f with stage := .answering (replyOf outcome) }
      registry := { e.registry with permits := e.registry.permits + 1 } } := by
    simp only [step, settle, hf, hstage, if_true]
  refine .of_step hs ⟨rfl, rfl⟩
    (ends_of_answering ((Table.get?_insert ..).trans (if_pos rfl)) ?_ rfl)
  rw [deeds_settle, List.countP_append, hds]
  rfl

/-- A call that is ready ends after it is made, settled and answered. -/
lemma ends_of_ready (hstage : f.stage = .ready) : e.Ends c outcome 3 ds := by
  have hs : e.step (.begin c)
      = some { e with forwards := e.forwards.insert c { f with stage := .calling } } := by
    simp only [step, begin, hf, hstage, if_true]
  refine .of_step hs rfl (ends_of_calling ((Table.get?_insert ..).trans (if_pos rfl)) ?_ rfl)
  rw [deeds_begin hf, List.countP_append, hds]
  rfl

end ends

/-- The registry comes to a call after the commands that are ahead of it, unless it stops. -/
lemma ends_of_queued (o : e.Lined) (outcome : Except SessionError CallResult)
    (hr : e.running = true) {ahead behind : List Command}
    (hq : e.queue = ahead ++ .route c i :: behind) (hds : ds.countP Deed.isEnd = 0) :
    e.Ends c outcome (ahead.length + 4) ds := by
  -- over what is ahead in the queue: one service for each command, then the call itself
  induction ahead generalizing e with
  | nil =>
    obtain ⟨e', hs⟩ := Option.isSome_iff_exists.1 (isSome_serve hr hq)
    have htaken := taken_of_step o hr hq hs
    refine .of_step (n := 3) hs trivial ?_
    generalize e.deeds c .serve = new at htaken ⊢
    cases htaken with
    | kept hserve => exact absurd hserve (by simp [ExchangeAction.isServe])
    | nearer _ hahead | dropped _ hahead => exact absurd hahead (by simp)
    | refused =>
      apply ends_now
      rw [List.countP_append, hds]
      rfl
    | forwarded _ _ _ hf =>
      refine ends_of_ready hf ?_ rfl
      rw [List.countP_append, hds]
      rfl
  | cons x ahead ih =>
    obtain ⟨e', hs⟩ := Option.isSome_iff_exists.1 (isSome_serve hr hq)
    have htaken := taken_of_step o hr hq hs
    rw [List.length_cons, Nat.add_right_comm]
    refine .of_step hs trivial ?_
    generalize e.deeds c .serve = new at htaken ⊢
    cases htaken with
    | kept hserve => exact absurd hserve (by simp [ExchangeAction.isServe])
    | nearer _ hahead hr' hq' =>
      rw [← (List.cons.inj hahead).2] at hq'
      rw [List.append_nil]
      exact ih (o.step hs) hr' hq'
    | dropped =>
      apply ends_now
      rw [List.countP_append, hds]
      rfl
    | refused _ hahead | forwarded _ hahead => exact absurd hahead (by simp)

/-- A call has one end at most. -/
theorem Course.once (k : e.Course m since c i ds) : ds.countP Deed.isEnd ≤ 1 := by
  cases k with
  | forwarded _ _ u => cases u <;> simp [Deed.isEnd]
  | _ => simp [Deed.isEnd]

/-- A forwarded call comes to its end without the registry. -/
theorem Underway.ends {r : Registry} {connection : ConnectionId} {procedure : String}
    {arguments : CallResult} (u : e.Underway c connection procedure arguments ds)
    (outcome : Except SessionError CallResult) : e.Ends c outcome 3 (.judged r :: ds) := by
  cases u with
  | ready hf => exact ends_of_ready hf rfl rfl
  | calling hf => exact (ends_of_calling hf rfl rfl).mono (by omega)
  | answering hf => exact (ends_of_answering hf rfl rfl).mono (by omega)
  | answered => exact ends_now rfl

/-- A call comes to its end. -/
theorem Course.ends (k : e.Course m since c i ds) (o : e.Lined)
    (outcome : Except SessionError CallResult) :
    e.Ends c outcome (e.queue.length + 3) ds := by
  cases k with
  | closed | full | dropped | refused => exact ends_now rfl
  | @queued _ ahead behind hr hq =>
    refine (ends_of_queued o outcome hr hq rfl).mono ?_
    rw [hq, List.length_append, List.length_cons]
    omega
  | forwarded _ _ u => exact (u.ends outcome).mono (Nat.le_add_left ..)

/-! ## Every call in every run -/

/-- What is true of the call `c` at any time, an invocation `i` that came in when the exchange was
`m`. `since` has happened since, and `ds` is what has been done about the call. -/
structure Resolved (e m : Exchange) (since : List (Exchange × ExchangeAction)) (c : CallId)
    (i : Invocation) (ds : List Deed) : Prop where
  course : e.Course m since c i ds
  /-- It ends once. -/
  once : ds.countP Deed.isEnd ≤ 1
  /-- Its caller hears what is done about it, unless it leaves before. -/
  heard : e.slot c = Deed.heard ds ∨ e.slot c = .abandoned ∧ ∃ s, (s, .leave c) ∈ since
  /-- If it has not ended, then it can, whatever comes of it where it is made. -/
  ends : ∀ outcome, e.Ends c outcome (e.queue.length + 3) ds

/-- In every run of a registry, each call that comes in ends in one of the ways of `Course`, and
once. -/
theorem resolved_of_past {name : String} {permits : Nat} {refusal : Option SessionError}
    (h₀ : start name permits refusal = .ok e₀) {before : List (Exchange × ExchangeAction)}
    (ha : a.offers? = some i) (h : Past e₀ (since ++ (m, a) :: before) e) :
    e.Resolved m since m.nextCall i (record (since ++ (m, a) :: before) m.nextCall) := by
  -- the course and what the caller hears, by induction on what follows the call
  have hfollowed : e.Course m since m.nextCall i (record (since ++ (m, a) :: before) m.nextCall) ∧
      e.Hears since m.nextCall (record (since ++ (m, a) :: before) m.nextCall) ∧
      m.nextCall < e.nextCall := by
    induction since generalizing e with
    | nil =>
      cases h with
      | step h hs =>
        have o := lined_of_past (lined_of_start h₀) h
        obtain ⟨hcourse, hcalls⟩ := course_of_offer o ha hs
        have hrecord : record ([] ++ (m, a) :: before) m.nextCall = m.deeds m.nextCall a := by
          rw [List.nil_append, record_cons, record_of_unused (lined_of_start h₀) h (Nat.le_refl _),
            List.nil_append]
        rw [hrecord]
        exact ⟨hcourse, .inl hcalls, nextCall_of_offer ha hs ▸ Nat.lt_succ_self _⟩
    | cons p since ih =>
      cases h with
      | step h hs =>
        obtain ⟨hcourse, hears, hlt⟩ := ih h
        rw [List.cons_append, record_cons]
        exact ⟨hcourse.step (lined_of_past (lined_of_start h₀) h) hs, hears.step hlt hs,
          Nat.lt_of_lt_of_le hlt (nextCall_of_step hs)⟩
  obtain ⟨hcourse, hears, -⟩ := hfollowed
  refine ⟨hcourse, hcourse.once, ?_, hcourse.ends (lined_of_past (lined_of_start h₀) h)⟩
  rcases hears with hheard | ⟨hleft, hs⟩
  · left
    rw [slot, hheard]
    rfl
  · right
    rw [slot, hleft]
    exact ⟨rfl, hs⟩

/-- A call for a procedure at home. -/
def errand : Invocation := { procedure := some "home/a", args := [.str "x"] }

/-- The registry comes to it, and it is made, returns, and is answered. -/
def runErrand : List ExchangeAction :=
  [.serve, .begin 0, .settle 0 (.ok ⟨[.str "y"], []⟩), .answer 0]

/-- What has been done about it then. -/
theorem resolved_of_errand :
    ((alone.offer errand).run runErrand).Resolved alone ((alone.offer errand).trail runErrand) 0
      errand
      [.judged alone.registry, .made homeConnection "a" ⟨[.str "x"], []⟩,
        .returned (.ok ⟨[.str "y"], []⟩), .told (.result ⟨[.str "y"], []⟩)] := by
  have hpast : Past alone
      ((alone.offer errand).trail runErrand ++ (alone, .call errand) :: [])
      ((alone.offer errand).run runErrand) := History.run (.step .started rfl) runErrand
  have hrecord : record ((alone.offer errand).trail runErrand ++ (alone, .call errand) :: []) 0
      = [.judged alone.registry, .made homeConnection "a" ⟨[.str "x"], []⟩,
        .returned (.ok ⟨[.str "y"], []⟩), .told (.result ⟨[.str "y"], []⟩)] := by
    decide +kernel
  rw [← hrecord]
  exact resolved_of_past start_alone rfl hpast

/-- A registry that has a call in its queue, after the last handle was given up. -/
def forsaken : Exchange := alone.run [.call errand, .release]

/-- It runs, there is room in its queue, it can go on, and by its table a call for another procedure
at home would be forwarded. But such a call is told that the registry is no longer running. -/
theorem closed_of_forsaken :
    alone.Reaches forsaken ∧ forsaken.running = true ∧ forsaken.queue.length < capacity ∧
      (forsaken.step .serve).isSome = true ∧
      forsaken.registry.Judges (some "home/b") (.forwarded homeConnection "b") ∧
      (forsaken.step (.invoke { procedure := some "home/b" })).map (·.slot forsaken.nextCall)
        = some (.answered (.error "session registry is no longer running")) := by
  refine ⟨reaches_run .., by decide +kernel, by decide +kernel, by decide +kernel, ?_,
    by decide +kernel⟩
  rw [Registry.judges_iff]
  decide +kernel

end Exchange
end Switchboard
