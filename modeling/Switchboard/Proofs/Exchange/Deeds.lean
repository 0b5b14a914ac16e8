import Switchboard.Proofs.Exchange.Calls
import Switchboard.Proofs.Exchange.Verdicts

/-!
# What is done about a call

The exchange does a few things about a call: it tells its caller a reply, gives the call up, judges
it, makes it, and receives what it returns.

* `Exchange.deeds` is what an action does about a call, and `Exchange.record` what has been done by
  all that has happened.
* `deeds_of_forwards` says that nothing is done about other calls.
* `calls_of_step` says that the caller hears of nothing else.
-/

namespace Switchboard

/-- What is done about a call. -/
inductive Deed
  /-- Its caller is told a reply. -/
  | told (reply : Reply)
  /-- It is given up without a reply. -/
  | dropped
  /-- The registry comes to it, and finds itself like this. -/
  | judged (registry : Registry)
  /-- It is made on a connection. -/
  | made (connection : ConnectionId) (procedure : String) (arguments : CallResult)
  /-- The connection returns its outcome. -/
  | returned (outcome : Except SessionError CallResult)
deriving DecidableEq, Repr

namespace Deed

/-- Whether this is the end of a call. -/
def isEnd : Deed → Bool
  | told _ | dropped => true
  | _ => false

/-- What the caller has afterwards. -/
def reach (slot : ReplySlot) : Deed → ReplySlot
  | told reply => slot.answer reply
  | dropped => slot.abandon
  | _ => slot

/-- What a caller that does not leave has in the end. -/
def heard (l : List Deed) : ReplySlot := l.foldl reach .waiting

end Deed

/-- The reply that an effect gives to a call. -/
def Effect.reply? (c : CallId) : Effect → Option Deed
  | .refuse k error => if k = c then some (.told (.error error.message)) else none
  | _ => none

/-- The reply that a forwarded call is about to be answered with. -/
def Forward.reply? (f : Forward) : Option Reply :=
  match f.stage with
  | .answering reply => some reply
  | _ => none

namespace ExchangeAction

/-- The call that comes in by an action. -/
def offers? : ExchangeAction → Option Invocation
  | .call i | .invoke i => some i
  | _ => none

/-- Whether the registry handles its next command. -/
def isServe : ExchangeAction → Bool
  | .serve => true
  | _ => false

lemma isServe_iff {a : ExchangeAction} : a.isServe = true ↔ a = .serve := by
  cases a <;> simp [isServe]

/-- Whether the caller of a call stops waiting. -/
def isLeave (c : CallId) : ExchangeAction → Bool
  | .leave k => k = c
  | _ => false

end ExchangeAction

namespace Exchange

/-! ## What is done about a call -/

/-- What is done about the call `c` when a call comes in. -/
def greeted (e : Exchange) (c : CallId) (i : Invocation) : List Deed :=
  if c = e.nextCall then
    match (e.offer i).slot c with
    | .answered reply => [.told reply]
    | _ => []
  else []

/-- What is done about the call `c` when the registry handles its next command. -/
def handled (e : Exchange) (c : CallId) : List Deed :=
  match e.queue with
  | [] => []
  | .stop :: rest => (rest.filter (·.isRouteOf c)).map fun _ => .dropped
  | x :: _ =>
    (if x.isRouteOf c then [.judged e.registry] else [])
      ++ (e.registry.react e.nextSession x).2.filterMap (·.reply? c)

/-- What an action does about the call `c`, in order. -/
def deeds (e : Exchange) (c : CallId) : ExchangeAction → List Deed
  | .call i | .invoke i => e.greeted c i
  | .serve => e.handled c
  | .begin k =>
    if k = c then
      ((e.forwards.get? c).map fun f => .made f.connection f.procedure f.arguments).toList
    else []
  | .settle k outcome => if k = c then [.returned outcome] else []
  | .answer k =>
    if k = c then (((e.forwards.get? c).bind Forward.reply?).map .told).toList else []
  | _ => []

/-- What has been done about the call `c`, in order. -/
def record (l : List (Exchange × ExchangeAction)) (c : CallId) : List Deed :=
  l.reverse.flatMap fun p => p.1.deeds c p.2

variable {e e' e₀ : Exchange} {a : ExchangeAction} {c : CallId} {i : Invocation}
  {l : List (Exchange × ExchangeAction)}

lemma record_cons (e : Exchange) (a : ExchangeAction) (l : List (Exchange × ExchangeAction))
    (c : CallId) : record ((e, a) :: l) c = record l c ++ e.deeds c a := by
  rw [record, List.reverse_cons, List.flatMap_append, List.flatMap_singleton]
  rfl

lemma record_append (l l' : List (Exchange × ExchangeAction)) (c : CallId) :
    record (l ++ l') c = record l' c ++ record l c := by
  rw [record, List.reverse_append, List.flatMap_append]
  rfl

lemma lined_of_reaches (o : e₀.Lined) (h : e₀.Reaches e) : e.Lined := by
  induction h with
  | refl => exact o
  | step _ _ hs ih => exact ih.step hs

lemma lined_of_past (o : e₀.Lined) (h : Past e₀ l e) : e.Lined :=
  lined_of_reaches o h.reaches

/-- Every call that is offered takes the next number. -/
lemma nextCall_of_offer (ha : a.offers? = some i) (h : e.step a = some e') :
    e'.nextCall = e.nextCall + 1 := by
  cases change_of_step h with
  | called | invoked => rfl
  | _ => exact absurd ha (by simp [ExchangeAction.offers?])

/-! ### Nothing is done about other calls -/

/-- No call is answered when a session is removed. -/
lemma reply?_of_mem_remove {r : Registry} {domain : String} {x : Effect}
    (h : x ∈ (r.remove domain).2) : x.reply? c = none := by
  unfold Registry.remove at h
  split at h
  · exact absurd h (by simp)
  · next entry _ =>
    rcases List.mem_append.1 h with h | h
    · cases entry <;> (rw [Entry.release, List.mem_singleton] at h; rw [h]; rfl)
    · rw [List.mem_singleton] at h
      rw [h]
      rfl

lemma reply?_of_mem_discard {outcome : Option Link} {x : Effect}
    (h : x ∈ Registry.discard outcome) : x.reply? c = none := by
  cases outcome with
  | none => exact absurd h (by simp [Registry.discard])
  | some link =>
    rw [Registry.discard, List.mem_singleton] at h
    rw [h]
    rfl

/-- The registry replies to no call but the one that it comes to. -/
lemma reply?_of_mem_react {r : Registry} {fresh : SessionId} {command : Command} {x : Effect}
    (hc : command.isRouteOf c = false) (h : x ∈ (r.react fresh command).2) :
    x.reply? c = none := by
  cases command with
  | discovered info =>
    simp only [Registry.react, Registry.discover] at h
    split at h
    · exact absurd h (by simp)
    · split at h <;> (rw [List.mem_singleton] at h; rw [h]; rfl)
  | attempted domain id outcome =>
    simp only [Registry.react, Registry.conclude] at h
    split at h
    · split at h
      · exact reply?_of_mem_discard h
      · split at h
        · exact reply?_of_mem_remove h
        · rw [List.mem_singleton] at h
          rw [h]
          rfl
    · exact reply?_of_mem_discard h
  | lost domain id =>
    simp only [Registry.react, Registry.lose] at h
    split at h
    · exact absurd h (by simp)
    · split at h
      · exact reply?_of_mem_remove h
      · exact absurd h (by simp)
  | route k i =>
    have hne : k ≠ c := of_decide_eq_false hc
    change x ∈ (r.route k i).2 at h
    rcases r.route_of_verdict k i with ⟨error, -, hroute⟩ | ⟨connection, procedure, -, hroute⟩
    · rw [hroute, List.mem_singleton] at h
      rw [h]
      exact if_neg hne
    · rw [hroute, List.mem_singleton] at h
      rw [h]
      rfl
  | list query =>
    rw [Registry.react, List.mem_singleton] at h
    rw [h]
    rfl
  | stop => exact absurd h (by simp [Registry.react])

/-- When the registry stops, the calls in its queue are dropped. -/
lemma handled_stop {rest : List Command} (hq : e.queue = .stop :: rest) :
    e.handled c = (rest.filter (·.isRouteOf c)).map fun _ => .dropped := by
  simp only [handled, hq]

/-- A call that comes first in the queue is judged, and its reply may be among the effects. -/
lemma handled_cons {x : Command} {rest : List Command} (hq : e.queue = x :: rest)
    (hx : x ≠ .stop) : e.handled c = (if x.isRouteOf c then [.judged e.registry] else [])
      ++ (e.registry.react e.nextSession x).2.filterMap (·.reply? c) := by
  simp only [handled, hq]

/-- Nothing happens to a call while the registry answers another command. -/
lemma handled_of_not_route {x : Command} {rest : List Command} (hq : e.queue = x :: rest)
    (hx : x ≠ .stop) (hroute : x.isRouteOf c = false) : e.handled c = [] := by
  have hreplies : (e.registry.react e.nextSession x).2.filterMap (·.reply? c) = [] := by
    rw [List.filterMap_eq_nil_iff]
    exact fun y hy => reply?_of_mem_react hroute hy
  rw [handled_cons hq hx, hroute, hreplies]
  rfl

/-- The registry does nothing about a call that is not in its queue. -/
theorem handled_of_routes (h : e.routes c = []) : e.handled c = [] := by
  rw [routes, List.filter_eq_nil_iff] at h
  cases hq : e.queue with
  | nil => simp only [handled, hq]
  | cons x rest =>
    by_cases hx : x = .stop
    · have hrest : rest.filter (·.isRouteOf c) = [] := by
        rw [List.filter_eq_nil_iff]
        exact fun y hy => h y (hq ▸ List.mem_cons_of_mem _ hy)
      rw [handled_stop (hx ▸ hq), hrest]
      rfl
    · have hroute := h x (hq ▸ List.mem_cons_self)
      exact handled_of_not_route hq hx (by simpa using hroute)

/-- An action that is not about a call does nothing to it. -/
lemma deeds_of_not_concerns (hoffer : c = e.nextCall → a.offers? = none)
    (hserve : a.isServe = true → e.handled c = []) (ha : a.concerns c = false) :
    e.deeds c a = [] := by
  have hgreeted : ∀ i, a.offers? = some i → e.greeted c i = [] := by
    intro i h
    apply if_neg
    intro hc
    exact absurd ((hoffer hc).symm.trans h) (by simp)
  cases a with
  | call | invoke => exact hgreeted _ rfl
  | serve => exact hserve rfl
  | begin | settle | answer => exact if_neg (of_decide_eq_false ha)
  | _ => rfl

/-- Nothing is done about a call that is not on its way, unless it comes in or the registry comes to
it. -/
theorem deeds_of_forwards (hoffer : c = e.nextCall → a.offers? = none)
    (hserve : a.isServe = true → e.handled c = []) (hf : e.forwards.get? c = none)
    (h : e.step a = some e') : e.deeds c a = [] := by
  cases ha : a.concerns c with
  | false => exact deeds_of_not_concerns hoffer hserve ha
  | true =>
    obtain ⟨hm, -, -⟩ := callMoved_of_step ha h
    cases hm with
    | left => rfl
    | begun hf' | settled hf' | answered hf' => exact absurd (hf.symm.trans hf') (by simp)

/-- Nothing is done about a call before it comes in. -/
theorem record_of_unused (o : e₀.Lined) (h : Past e₀ l e) (hc : e.nextCall ≤ c) :
    record l c = [] := by
  induction h with
  | started => rfl
  | @step l e e' a h hs ih =>
    have hle := nextCall_of_step hs
    obtain ⟨hroutes, hf⟩ := (lined_of_past o h).unused c (Nat.le_trans hle hc)
    have hoffer : c = e.nextCall → a.offers? = none := by
      intro he
      -- the name of a call that comes in is used up
      cases ho : a.offers? with
      | none => rfl
      | some i =>
        rw [nextCall_of_offer ho hs, he] at hc
        exact absurd hc (Nat.not_succ_le_self _)
    rw [record_cons, ih (Nat.le_trans hle hc),
      deeds_of_forwards hoffer (fun _ => handled_of_routes hroutes) hf hs, List.append_nil]

/-! ## What is done about a call on its way -/

/-- A forwarded call is made with the procedure and arguments that were forwarded. -/
lemma deeds_begin {f : Forward} (hf : e.forwards.get? c = some f) :
    e.deeds c (.begin c) = [.made f.connection f.procedure f.arguments] := by
  simp only [deeds, hf, if_true]
  rfl

lemma deeds_settle (outcome : Except SessionError CallResult) :
    e.deeds c (.settle c outcome) = [.returned outcome] :=
  if_pos rfl

/-- The last that happens to a forwarded call is that its caller is told the reply. -/
lemma deeds_answer {f : Forward} {reply : Reply} (hf : e.forwards.get? c = some f)
    (hstage : f.stage = .answering reply) : e.deeds c (.answer c) = [.told reply] := by
  simp only [deeds, hf, if_true, Option.bind_some, Forward.reply?, hstage]
  rfl

/-! ## The call that the registry comes to -/

/-- The registry acts on its verdict on a call. -/
theorem acted_route (e : Exchange) (rest : List Command) (c : CallId) (i : Invocation) :
    (∃ reason, e.registry.Judges i.procedure (.refused reason) ∧
      (e.registry.route c i).2.filterMap (·.reply? c) = [.told (.error reason)] ∧
      e.acted rest (e.registry.route c i)
        = { e.taken rest with calls := e.calls.modify c (·.answer (.error reason)) }) ∨
    ∃ connection procedure, e.registry.Judges i.procedure (.forwarded connection procedure) ∧
      (e.registry.route c i).2.filterMap (·.reply? c) = [] ∧
      e.acted rest (e.registry.route c i)
        = { e.taken rest with
            registry := { e.registry with permits := e.registry.permits - 1 }
            forwards := e.forwards.insert c
              { connection, procedure, arguments := ⟨i.args, i.kwargs⟩ } } := by
  rcases e.registry.route_of_verdict c i with
    ⟨error, hverdict, hroute⟩ | ⟨connection, procedure, hverdict, hroute⟩
  · have hreply : (Effect.refuse c error).reply? c = some (.told (.error error.message)) :=
      if_pos rfl
    left
    refine ⟨error.message, Registry.judges_iff.2 hverdict.symm, ?_, ?_⟩
    · rw [hroute, List.filterMap_cons_some hreply, List.filterMap_nil]
    · rw [hroute]
      rfl
  · right
    refine ⟨connection, procedure, Registry.judges_iff.2 hverdict.symm, ?_, ?_⟩
    · rw [hroute]
      rfl
    · rw [hroute]
      rfl

/-! ## What the caller hears -/

lemma map_reach_nil (x : Option ReplySlot) :
    x.map (fun slot => ([] : List Deed).foldl Deed.reach slot) = x := by
  cases x <;> rfl

/-- The callers of dismissed commands hear that they are dropped. -/
theorem calls_dismiss (l : List Command) (x : Exchange) : (l.foldl dismiss x).calls.get? c =
    (x.calls.get? c).map fun slot =>
      ((l.filter (·.isRouteOf c)).map fun _ => .dropped).foldl Deed.reach slot := by
  induction l generalizing x with
  | nil => exact (map_reach_nil _).symm
  | cons y rest ih =>
    rw [List.foldl_cons, ih]
    cases hy : y.isRouteOf c with
    | false => rw [slot_dismiss x hy, List.filter_cons_of_neg (by simp [hy])]
    | true =>
      rw [List.filter_cons_of_pos hy]
      cases y with
      | route k j =>
        obtain rfl : k = c := of_decide_eq_true hy
        have hslot : (x.dismiss (.route k j)).calls.get? k = (x.calls.get? k).map .abandon :=
          (Table.get?_modify ..).trans (if_pos rfl)
        rw [hslot, Option.map_map]
        rfl
      | _ => exact absurd hy (by simp [Command.isRouteOf])

/-- What the registry does with a command reaches the reply slots of all calls. -/
lemma calls_of_serve (h : e.step .serve = some e') :
    e'.calls.get? c
      = (e.calls.get? c).map fun slot => (e.handled c).foldl Deed.reach slot := by
  obtain ⟨hr, -⟩ := served_of_serve h
  cases hq : e.queue with
  | nil =>
    -- the registry halts with an empty queue, and no call is dropped
    have hhandled : e.handled c = [] := by simp only [handled, hq]
    rw [serve_nil hr hq h, hhandled, map_reach_nil]
    change (e.queue.foldl dismiss e).calls.get? c = _
    rw [hq]
    rfl
  | cons x rest =>
    by_cases hx : x = .stop
    · subst hx
      obtain rfl := Option.some.inj ((serve_stop hr hq).symm.trans h)
      rw [handled_stop hq]
      exact calls_dismiss rest { e with queue := rest }
    · have he := Option.some.inj ((serve_cons hr hq hx).symm.trans h)
      cases hroute : x.isRouteOf c with
      | false =>
        rw [handled_of_not_route hq hx hroute, map_reach_nil, ← he]
        exact (callKept_served hq hroute (served_react e rest hx)).slot
      | true =>
        rw [handled_cons hq hx, if_pos hroute]
        cases x with
        | route k i =>
          obtain rfl : k = c := of_decide_eq_true hroute
          change e.acted rest (e.registry.route k i) = e' at he
          change _ = (e.calls.get? k).map fun slot => ([Deed.judged e.registry] ++
            (e.registry.route k i).2.filterMap (·.reply? k)).foldl Deed.reach slot
          -- the call is refused at once, or forwarded without a reply
          rcases e.acted_route rest k i with
            ⟨reason, -, hreplies, hacted⟩ | ⟨connection, procedure, -, hreplies, hacted⟩
          · rw [hreplies, ← he, hacted]
            exact (Table.get?_modify ..).trans (if_pos rfl)
          · rw [hreplies, ← he, hacted]
            exact (map_reach_nil _).symm
        | _ => exact absurd hroute (by simp [Command.isRouteOf])

/-- A caller hears what is done about its call, unless it leaves, and nothing else. -/
theorem calls_of_step (hlt : c < e.nextCall) (h : e.step a = some e') :
    e'.calls.get? c = (e.calls.get? c).map fun slot =>
      (e.deeds c a).foldl Deed.reach (if a.isLeave c then slot.abandon else slot) := by
  have hne : c ≠ e.nextCall := Nat.ne_of_lt hlt
  by_cases hserve : a = .serve
  · subst hserve
    exact calls_of_serve h
  · cases ha : a.concerns c with
    | false =>
      have hleave : a.isLeave c = false := by
        cases a with
        | leave k => exact ha
        | _ => rfl
      rw [deeds_of_not_concerns (fun hc => absurd hc hne)
        (fun hs => absurd (ExchangeAction.isServe_iff.1 hs) hserve) ha, hleave]
      exact (callKept_of_ne_serve (fun _ _ => hne) ha hserve h).slot.trans (map_reach_nil _).symm
    | true =>
      obtain ⟨hm, -, -⟩ := callMoved_of_step ha h
      cases hm with
      | left =>
        rw [← Option.some.inj h, show (ExchangeAction.leave c).isLeave c = true from
          decide_eq_true rfl]
        exact (Table.get?_modify ..).trans (if_pos rfl)
      | begun hf _ _ hs =>
        rw [deeds_begin hf, hs]
        exact (map_reach_nil _).symm
      | settled _ _ _ hs =>
        rw [deeds_settle, hs]
        exact (map_reach_nil _).symm
      | answered hf hstage _ hs =>
        rw [deeds_answer hf hstage, hs]
        rfl

variable {since : List (Exchange × ExchangeAction)} {ds : List Deed}

lemma foldl_reach_abandoned (ds : List Deed) : ds.foldl Deed.reach .abandoned = .abandoned := by
  induction ds with
  | nil => rfl
  | cons d ds ih => cases d <;> exact ih

/-- A caller has heard all that has been done about its call, or it has left before. -/
def Hears (e : Exchange) (since : List (Exchange × ExchangeAction)) (c : CallId)
    (ds : List Deed) : Prop :=
  e.calls.get? c = some (Deed.heard ds) ∨
    e.calls.get? c = some .abandoned ∧ ∃ s, (s, .leave c) ∈ since

/-- What a caller has heard is what has happened to its call, after every step. -/
lemma Hears.step (k : e.Hears since c ds) (hlt : c < e.nextCall) (h : e.step a = some e') :
    e'.Hears ((e, a) :: since) c (ds ++ e.deeds c a) := by
  have hcalls := calls_of_step hlt h
  rcases k with k | ⟨k, s, hs⟩
  · rw [k, Option.map_some] at hcalls
    cases hleave : a.isLeave c with
    | false =>
      rw [hleave] at hcalls
      left
      rw [Deed.heard, List.foldl_append]
      exact hcalls
    | true =>
      cases a with
      -- leaving counts if nothing has been heard, and else comes too late
      | leave c' =>
        obtain rfl : c' = c := of_decide_eq_true hleave
        rw [hleave] at hcalls
        change e'.calls.get? c' = some (Deed.heard ds).abandon at hcalls
        change e'.Hears _ c' (ds ++ [])
        rw [List.append_nil]
        cases hheard : Deed.heard ds with
        | waiting =>
          rw [hheard] at hcalls
          exact .inr ⟨hcalls, e, List.mem_cons_self⟩
        | answered | abandoned =>
          rw [hheard] at hcalls
          exact .inl (hcalls.trans (congrArg some hheard.symm))
      | _ => exact absurd hleave (by simp [ExchangeAction.isLeave])
  · rw [k, Option.map_some] at hcalls
    right
    refine ⟨?_, s, List.mem_cons_of_mem _ hs⟩
    rw [hcalls]
    cases a.isLeave c <;> exact congrArg some (foldl_reach_abandoned _)

end Exchange
end Switchboard
