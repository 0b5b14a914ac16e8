import Switchboard.Proofs.Exchange.Outcomes

/-!
# Permits

A call takes a permit when the registry forwards it, and gives it back when it returns, before its
caller hears of it. What is free and what is out make up the limit at any time.

* `conserved_of_step` says that no action changes the sum.
* `Exchange.AnswersLast` says that a call with an answer is on its way no more, and
  `AnswersLast.step` keeps it.
* `Exchange.Sequential` says that all calls but the latest have their answers, which is so as long
  as callers wait for them.
* `Exchange.Metered` is what it comes to, and `metered_of_past` says that it holds in every run.
-/

namespace Switchboard

/-- Whether the caller has an answer. -/
def ReplySlot.isAnswered : ReplySlot → Bool
  | answered _ => true
  | _ => false

namespace Exchange

variable {e e' e₀ : Exchange} {a : ExchangeAction} {c : CallId}
  {l : List (Exchange × ExchangeAction)}

/-! ## What is free and what is out -/

/-- How many forwarded calls have not returned. -/
def outstanding (e : Exchange) : Nat := e.forwards.count fun _ f => f.isOutstanding

/-- What a change of one forwarded call does to the number of those outstanding. -/
lemma outstanding_insert {f : Forward} (hf : e.forwards.get? c = some f) (f' : Forward) :
    (e.forwards.insert c f').count (fun _ x => x.isOutstanding) + f.isOutstanding.toNat
      = e.outstanding + f'.isOutstanding.toNat := by
  have hcount := e.forwards.count_insert (fun _ x => x.isOutstanding) c f'
  rw [hf, Table.share_some] at hcount
  exact hcount

/-- A command that the registry answers takes a permit for the call that it forwards, and none for
any other. -/
lemma conserved_of_served (o : e.Lined) {x : Command} {rest : List Command}
    (hq : e.queue = x :: rest) (hs : e.Served rest x e') :
    e'.registry.permits + e'.outstanding = e.registry.permits + e.outstanding := by
  cases hs with
  | @forwarded call i target link _ _ hp =>
    obtain ⟨-, -, hnone⟩ := o.of_mem (show .route call i ∈ e.queue by rw [hq]; simp)
    have hcount := e.forwards.count_insert (fun _ f => f.isOutstanding) call
      { connection := link.connection, procedure := target.procedure,
        arguments := ⟨i.args, i.kwargs⟩ }
    rw [hnone, Table.share_none] at hcount
    change _ = _ + 1 at hcount
    simp only [outstanding]
    omega
  | _ => rfl

/-- Whatever happens, what is free and what is out make up the same. -/
theorem conserved_of_step (o : e.Lined) (h : e.step a = some e') :
    e'.registry.permits + e'.outstanding = e.registry.permits + e.outstanding := by
  have hsame : e'.registry = e.registry → e'.forwards = e.forwards →
      e'.registry.permits + e'.outstanding = e.registry.permits + e.outstanding :=
    fun hregistry hforwards => by rw [outstanding, hregistry, hforwards, outstanding]
  cases change_of_step h with
  | served _ hq hs => exact conserved_of_served o hq hs
  | stopped =>
    obtain ⟨-, hforwards, hregistry⟩ := halt_fields _
    exact hsame hregistry hforwards
  | called | invoked => exact hsame (offer_fields ..).1 (offer_fields ..).2.1
  | concluded | noticed => exact hsame (tell_fields ..).1 (tell_fields ..).2.1
  | @begun call f hf hstage =>
    have hcount := outstanding_insert hf { f with stage := .calling }
    rw [Forward.isOutstanding, hstage] at hcount
    exact congrArg (e.registry.permits + ·) (Nat.add_right_cancel hcount)
  | @settled call f outcome hf hstage =>
    -- the permit comes back
    have hcount := outstanding_insert hf { f with stage := .answering (replyOf outcome) }
    rw [Forward.isOutstanding, hstage] at hcount
    change _ + 1 = _ + 0 at hcount
    simp only [outstanding] at hcount ⊢
    omega
  | @answered call f reply hf hstage =>
    have hcount := e.forwards.count_erase (fun _ f => f.isOutstanding) call
    rw [hf, Table.share_some, Forward.isOutstanding, hstage] at hcount
    exact congrArg (e.registry.permits + ·) hcount
  | _ => exact hsame rfl rfl

/-- The permits that are left and the calls that hold one keep their sum. -/
lemma conserved_of_past (o : e₀.Lined) (h : Past e₀ l e) :
    e.registry.permits + e.outstanding = e₀.registry.permits + e₀.outstanding := by
  induction h with
  | started => rfl
  | step h hs ih => exact (conserved_of_step (lined_of_past o h) hs).trans ih

/-- Only a call that is forwarded takes a permit. -/
lemma forwarded_of_permits_lt (h : e.step a = some e')
    (hlt : e'.registry.permits < e.registry.permits) :
    a = .serve ∧ ∃ c i rest connection procedure, e.queue = .route c i :: rest ∧
      e.registry.Judges i.procedure (.forwarded connection procedure) := by
  have hsame : e'.registry.permits ≠ e.registry.permits := Nat.ne_of_lt hlt
  cases change_of_step h with
  | @served x rest _ _ hq hs =>
    cases hs with
    | @forwarded call i target link ht hl hp =>
      refine ⟨rfl, call, i, rest, link.connection, target.procedure, hq, ?_⟩
      rw [Registry.judges_iff, Registry.verdict, ht]
      simp only [hl, Nat.ne_of_gt hp, if_false]
    | _ => exact absurd rfl hsame
  | stopped => exact absurd (congrArg (·.permits) (halt_fields _).2.2) hsame
  | called | invoked => exact absurd (congrArg (·.permits) (offer_fields ..).1) hsame
  | concluded | noticed => exact absurd (congrArg (·.permits) (tell_fields ..).1) hsame
  | settled => exact absurd hlt (by simp)
  | _ => exact absurd rfl hsame

/-! ## Answers -/

/-- A caller that leaves does not make an answer. -/
lemma eq_of_abandon {slot : ReplySlot} {reply : Reply} (h : slot.abandon = .answered reply) :
    slot = .answered reply := by
  cases slot with
  | answered r => exact h
  | waiting | abandoned => exact absurd h (by simp [ReplySlot.abandon])

/-- An answer is what a caller had before, or what it is told. -/
lemma told_of_foldl_reach {ds : List Deed} {slot : ReplySlot} {reply : Reply}
    (h : ds.foldl Deed.reach slot = .answered reply) :
    slot = .answered reply ∨ ∃ r, .told r ∈ ds := by
  induction ds generalizing slot with
  | nil => exact .inl h
  | cons d ds ih =>
    rcases ih h with hslot | ⟨r, hr⟩
    · cases d with
      | told r => exact .inr ⟨r, List.mem_cons_self⟩
      | dropped => exact .inl (eq_of_abandon hslot)
      | judged | made | returned => exact .inl hslot
    · exact .inr ⟨r, List.mem_cons_of_mem d hr⟩

/-- A call whose caller is told a reply is over. -/
lemma gone_of_told (o : e.Lined) (hlt : c < e.nextCall) (h : e.step a = some e') {r : Reply}
    (hr : .told r ∈ e.deeds c a) : e'.Gone c := by
  have hne : c ≠ e.nextCall := Nat.ne_of_lt hlt
  cases hf : e.forwards.get? c with
  | some f =>
    have hmove := onward_of_step o hf h
    generalize e.deeds c a = ds at hmove hr
    cases hmove with
    | kept | made | returned => exact absurd hr (by simp)
    | told _ g => exact g
  | none =>
    rcases o.queued c with hroutes | ⟨i, hroutes, -⟩
    · rw [(Gone.step ⟨hlt, hroutes, hf⟩ h).2] at hr
      exact absurd hr List.not_mem_nil
    · cases hserve : a.isServe with
      | false =>
        -- nothing is done about a call in the queue but by the registry
        rw [deeds_of_forwards (fun hc => absurd hc hne)
          (fun ha => absurd (hserve.symm.trans ha) (by simp)) hf h] at hr
        exact absurd hr List.not_mem_nil
      | true =>
        obtain rfl := ExchangeAction.isServe_iff.1 hserve
        have hmem : .route c i ∈ e.queue :=
          (List.mem_filter.1 (show .route c i ∈ e.routes c by rw [hroutes]; simp)).1
        obtain ⟨ahead, behind, hq⟩ := List.append_of_mem hmem
        have htaken := taken_of_step o (served_of_serve h).1 hq h
        generalize e.deeds c .serve = ds at htaken hr
        cases htaken with
        | kept | nearer | dropped | forwarded => exact absurd hr (by simp)
        | refused _ _ _ g => exact g

/-- A call that has not come in is new, or there is still nothing of it. -/
lemma offered_or_unused (o : e.Lined) (hc : e.nextCall ≤ c) (h : e.step a = some e') :
    (c = e.nextCall ∧ ∃ i, e' = e.offer i) ∨ (e'.routes c = [] ∧ e'.forwards.get? c = none) := by
  obtain ⟨hroutes, hf⟩ := o.unused c hc
  by_cases hoffer : c = e.nextCall ∧ ∃ i, e' = e.offer i
  · exact .inl hoffer
  · right
    cases ha : a.concerns c with
    | false =>
      have hne : ∀ i, e' = e.offer i → c ≠ e.nextCall := fun i hi he => hoffer ⟨he, i, hi⟩
      have hk := callKept_of_step hne hroutes ha h
      exact ⟨hk.routes.trans hroutes, hk.forward.trans hf⟩
    | true =>
      obtain ⟨hm, -, hq⟩ := callMoved_of_step ha h
      cases hm with
      | left hf' =>
        refine ⟨?_, hf'.trans hf⟩
        rw [routes, hq]
        exact hroutes
      | begun hf' | settled hf' | answered hf' => exact absurd (hf.symm.trans hf') (by simp)

/-- Calls that have their answers are neither in the queue nor on their way. -/
def AnswersLast (e : Exchange) : Prop :=
  ∀ c reply, e.calls.get? c = some (.answered reply) → e.routes c = [] ∧ e.forwards.get? c = none

theorem AnswersLast.step (k : e.AnswersLast) (o : e.Lined) (h : e.step a = some e') :
    e'.AnswersLast := by
  intro c reply hc
  by_cases hlt : c < e.nextCall
  · rw [calls_of_step hlt h, Option.map_eq_some_iff] at hc
    obtain ⟨slot, hslot, hreach⟩ := hc
    have hgone : e'.Gone c := by
      rcases told_of_foldl_reach hreach with hleft | ⟨r, hr⟩
      · have hbefore : slot = .answered reply := by
          split at hleft
          · exact eq_of_abandon hleft
          · exact hleft
        rw [hbefore] at hslot
        obtain ⟨hroutes, hf⟩ := k c reply hslot
        exact (Gone.step ⟨hlt, hroutes, hf⟩ h).1
      · exact gone_of_told o hlt h hr
    exact ⟨hgone.routes, hgone.forward⟩
  · rcases offered_or_unused o (Nat.le_of_not_lt hlt) h with ⟨rfl, i, rfl⟩ | hunused
    · obtain ⟨hroutes, hf⟩ := o.unused e.nextCall (Nat.le_refl _)
      obtain ⟨-, ho⟩ | ⟨message, ho⟩ := e.offer_cases i
      · -- a call that waits has no answer
        rw [ho] at hc
        exact absurd ((Table.get?_insert ..).symm.trans hc) (by simp)
      · rw [ho]
        exact ⟨hroutes, hf⟩
    · exact hunused

/-- Calls are answered last in every history. -/
lemma answersLast_of_past (k : e₀.AnswersLast) (o : e₀.Lined) (h : Past e₀ l e) :
    e.AnswersLast := by
  induction h with
  | started => exact k
  | step h hs ih => exact ih.step (lined_of_past o h) hs

/-! ## Callers that wait for their answers -/

/-- Each call comes in when all that came in before have their answers. -/
def Patient (l : List (Exchange × ExchangeAction)) : Prop :=
  ∀ p ∈ l, p.2.offers?.isSome = true → p.1.running = true →
    ∀ c < p.1.nextCall, (p.1.slot c).isAnswered = true

instance (l : List (Exchange × ExchangeAction)) : Decidable (Patient l) :=
  inferInstanceAs (Decidable (∀ p ∈ l, p.2.offers?.isSome = true → p.1.running = true →
    ∀ c < p.1.nextCall, (p.1.slot c).isAnswered = true))

/-- All calls but the latest have their answers. -/
def Sequential (e : Exchange) : Prop :=
  ∀ c, c + 1 < e.nextCall → ∃ reply, e.calls.get? c = some (.answered reply)

lemma isAnswered_slot_iff :
    (e.slot c).isAnswered = true ↔ ∃ reply, e.calls.get? c = some (.answered reply) := by
  unfold slot
  cases e.calls.get? c with
  | none => simp [ReplySlot.isAnswered]
  | some slot => cases slot <;> simp [ReplySlot.isAnswered]

/-- An answer stays. -/
theorem answered_of_step (hlt : c < e.nextCall) (h : e.step a = some e') {reply : Reply}
    (hc : e.calls.get? c = some (.answered reply)) :
    e'.calls.get? c = some (.answered reply) := by
  have hreach : ∀ ds : List Deed, ds.foldl Deed.reach (.answered reply) = .answered reply := by
    intro ds
    induction ds with
    | nil => rfl
    | cons d ds ih => cases d <;> exact ih
  have hslot : (if a.isLeave c then (ReplySlot.answered reply).abandon else .answered reply)
      = .answered reply := ite_self _
  rw [calls_of_step hlt h, hc, Option.map_some, hslot, hreach]

/-- New calls come in by offers only. -/
theorem offers_of_nextCall_lt (h : e.step a = some e') (hlt : e.nextCall < e'.nextCall) :
    a.offers?.isSome = true := by
  have hne : e'.nextCall ≠ e.nextCall := Nat.ne_of_gt hlt
  cases change_of_step h with
  | called | invoked => rfl
  | served _ _ hs => cases hs <;> exact absurd rfl hne
  | stopped => exact absurd (halt_fields _).1 hne
  | concluded | noticed => exact absurd (tell_fields ..).2.2.2 hne
  | _ => exact absurd rfl hne

lemma nextCall_le_succ (h : e.step a = some e') : e'.nextCall ≤ e.nextCall + 1 := by
  by_cases hlt : e.nextCall < e'.nextCall
  · obtain ⟨i, hi⟩ := Option.isSome_iff_exists.1 (offers_of_nextCall_lt h hlt)
    exact Nat.le_of_eq (nextCall_of_offer hi h)
  · exact Nat.le_succ_of_le (Nat.le_of_not_lt hlt)

/-- As long as callers wait for their answers, all calls but the latest have theirs. -/
theorem sequential_of_past (q : e₀.Sequential) (h : Past e₀ l e) (hp : Patient l)
    (hr : e.running = true) : e.Sequential := by
  induction h with
  | started => exact q
  | @step l e e' a h hs ih =>
    have hrun := (transition_of_step hs).running hr
    have hbefore := ih (fun p hmem => hp p (List.mem_cons_of_mem _ hmem)) hrun
    intro c hc
    have hlt : c < e.nextCall :=
      Nat.lt_of_succ_lt_succ (Nat.lt_of_lt_of_le hc (nextCall_le_succ hs))
    have hanswered : ∃ reply, e.calls.get? c = some (.answered reply) := by
      by_cases hlast : c + 1 < e.nextCall
      · exact hbefore c hlast
      · -- a call has come in, and this one came before it
        have hoffers :=
          offers_of_nextCall_lt hs (Nat.lt_of_le_of_lt (Nat.le_of_not_lt hlast) hc)
        exact isAnswered_slot_iff.1 (hp (e, a) List.mem_cons_self hoffers hrun c hlt)
    obtain ⟨reply, hreply⟩ := hanswered
    exact ⟨reply, answered_of_step hlt hs hreply⟩

/-- Then no other call is on its way when the registry comes to a call. -/
lemma outstanding_eq_zero (o : e.Lined) (k : e.AnswersLast) (q : e.Sequential) {i : Invocation}
    {rest : List Command} (hq : e.queue = .route c i :: rest) : e.outstanding = 0 := by
  obtain ⟨hlt, hroutes, hnone⟩ := o.of_mem (show .route c i ∈ e.queue by rw [hq]; simp)
  have hlast : e.nextCall = c + 1 := by
    refine Nat.le_antisymm ?_ hlt
    by_contra hc
    obtain ⟨reply, hreply⟩ := q c (Nat.lt_of_not_le hc)
    exact absurd (hroutes.symm.trans (k c reply hreply).1) (by simp)
  by_contra hpos
  obtain ⟨c', f, hf, -⟩ := Table.count_pos_iff.1 (Nat.pos_of_ne_zero hpos)
  have hlt' := o.lt_of_forward hf
  by_cases hc : c' + 1 < e.nextCall
  · obtain ⟨reply, hreply⟩ := q c' hc
    exact absurd ((k c' reply hreply).2.symm.trans hf) (by simp)
  · have hlast' : e.nextCall = c' + 1 := Nat.le_antisymm (Nat.le_of_not_lt hc) hlt'
    obtain rfl : c' = c := Nat.succ.inj (hlast'.symm.trans hlast)
    exact absurd (hnone.symm.trans hf) (by simp)

/-! ## Refusals -/

/-- The registry replies at once only to a call that it refuses. -/
lemma refused_of_told {reply : Reply} (h : .told reply ∈ e.deeds c .serve) :
    ∃ i rest reason, e.queue = .route c i :: rest ∧ reply = .error reason ∧
      e.registry.Judges i.procedure (.refused reason) := by
  change .told reply ∈ e.handled c at h
  cases hq : e.queue with
  | nil => simp [handled, hq] at h
  | cons x rest =>
    by_cases hx : x = .stop
    · rw [handled_stop (hx ▸ hq)] at h
      exact absurd h (by simp)
    · -- the registry tells a caller something only about a call that it refuses
      cases hroute : x.isRouteOf c with
      | false =>
        rw [handled_of_not_route hq hx hroute] at h
        exact absurd h List.not_mem_nil
      | true =>
        rw [handled_cons hq hx, if_pos hroute] at h
        cases x with
        | route k i =>
          obtain rfl : k = c := of_decide_eq_true hroute
          change _ ∈ [Deed.judged e.registry] ++
            (e.registry.route k i).2.filterMap (·.reply? k) at h
          rcases e.acted_route rest k i with
            ⟨reason, hj, hreplies, -⟩ | ⟨connection, procedure, -, hreplies, -⟩
          · rw [hreplies] at h
            exact ⟨i, rest, reason, rfl, by simpa using h, hj⟩
          · rw [hreplies] at h
            exact absurd h (by simp)
        | _ => exact absurd hroute (by simp [Command.isRouteOf])

/-- A call is found to be too many only when no permit is left. -/
lemma permits_of_busy {r : Registry} {procedure : Option String}
    (h : r.Judges procedure (.refused RouteError.busy.message)) : r.permits = 0 := by
  generalize hv : Verdict.refused RouteError.busy.message = v at h
  cases h with
  | busy _ _ _ hp => exact hp
  | forwarded => exact absurd hv (by simp)
  | _ => exact absurd hv (by decide)

/-- A call that is refused takes no permit. -/
lemma registry_of_refused {i : Invocation} {rest : List Command} {reason : String}
    (hq : e.queue = .route c i :: rest) (hj : e.registry.Judges i.procedure (.refused reason))
    (h : e.step .serve = some e') : e'.registry = e.registry ∧ e'.forwards = e.forwards := by
  obtain rfl := Option.some.inj ((serve_cons (served_of_serve h).1 hq (by simp)).symm.trans h)
  change (e.acted rest (e.registry.route c i)).registry = _ ∧
    (e.acted rest (e.registry.route c i)).forwards = _
  rcases e.acted_route rest c i with ⟨reason', -, -, hacted⟩ | ⟨connection, procedure, hj', -⟩
  · rw [hacted]
    exact ⟨rfl, rfl⟩
  · rw [Registry.judges_iff] at hj hj'
    exact absurd (hj.trans hj'.symm) (by simp)

/-! ## The limit -/

/-- What holds of the permits in every state. `l` has happened since the start. -/
structure Metered (e : Exchange) (l : List (Exchange × ExchangeAction)) (permits : Nat) :
    Prop where
  /-- What is free and what is out make up the limit. -/
  exact : e.registry.permits + e.outstanding = permits
  bounded : e.outstanding ≤ permits
  /-- Only when as many calls are out is a call refused for being too many. -/
  busy : ∀ c, .told (.error "too many forwarded calls in flight") ∈ e.deeds c .serve →
    e.outstanding = permits
  /-- A call that is refused, for whatever reason, takes no permit. -/
  refused : ∀ c i rest reason e', e.queue = .route c i :: rest →
    e.registry.Judges i.procedure (.refused reason) → e.step .serve = some e' →
    e'.registry = e.registry ∧ e'.forwards = e.forwards
  /-- Nothing takes a permit but a call that is forwarded. -/
  taken : ∀ a e', e.step a = some e' → e'.registry.permits < e.registry.permits →
    a = .serve ∧ ∃ c i rest connection procedure, e.queue = .route c i :: rest ∧
      e.registry.Judges i.procedure (.forwarded connection procedure)
  /-- When a caller has its answer, its call is out no more. -/
  returned : ∀ c, (e.slot c).isAnswered = true → e.forwards.get? c = none
  /-- When a caller waits for each answer before it calls again, no call is refused for being too
  many. -/
  patient : Patient l → e.running = true →
    ∀ c, .told (.error "too many forwarded calls in flight") ∉ e.deeds c .serve

/-- A registry starts with permits, all of which are left. -/
lemma permits_of_start {name : String} {permits : Nat} {refusal : Option SessionError}
    (h : start name permits refusal = .ok e) :
    0 < permits ∧ e.registry.permits + e.outstanding = permits := by
  refine ⟨?_, by rw [eq_of_start h]; rfl⟩
  unfold start at h
  split at h
  · exact absurd h (by simp)
  · split at h
    · exact absurd h (by simp)
    · next hpermits => exact Nat.pos_of_ne_zero hpermits

/-- In every run, the limit on forwarded calls is exact. -/
theorem metered_of_past {name : String} {permits : Nat} {refusal : Option SessionError}
    (h₀ : start name permits refusal = .ok e₀) (h : Past e₀ l e) : e.Metered l permits := by
  have o := lined_of_past (lined_of_start h₀) h
  have hstart : e₀.AnswersLast ∧ e₀.Sequential := by
    rw [eq_of_start h₀]
    exact ⟨fun c reply hc => absurd hc (by simp), fun c hc => absurd hc (Nat.not_lt_zero _)⟩
  have k := answersLast_of_past hstart.1 (lined_of_start h₀) h
  obtain ⟨hpos, hsum⟩ := permits_of_start h₀
  have hexact : e.registry.permits + e.outstanding = permits :=
    (conserved_of_past (lined_of_start h₀) h).trans hsum
  -- a refusal for want of permits says that all of them are taken
  have hbusy : ∀ c, .told (.error "too many forwarded calls in flight") ∈ e.deeds c .serve →
      e.outstanding = permits ∧ ∃ i rest, e.queue = .route c i :: rest := by
    intro c hc
    obtain ⟨i, rest, reason, hq, hreason, hj⟩ := refused_of_told hc
    rw [← Reply.error.inj hreason] at hj
    have hnone := permits_of_busy hj
    exact ⟨by omega, i, rest, hq⟩
  refine ⟨hexact, by omega, fun c hc => (hbusy c hc).1,
    fun c i rest reason e' => registry_of_refused, fun a e' => forwarded_of_permits_lt,
    fun c hc => ?_, fun hp hr c hc => ?_⟩
  · obtain ⟨reply, hreply⟩ := isAnswered_slot_iff.1 hc
    exact (k c reply hreply).2
  · obtain ⟨hall, i, rest, hq⟩ := hbusy c hc
    -- a client that waits for each answer has no other call outstanding
    have hzero := outstanding_eq_zero o k (sequential_of_past hstart.2 h hp hr) hq
    omega

/-- An exchange that forwards one call at a time. -/
def narrow : Exchange := { alone with registry := .start "home" 0 ⟨homeConnection, 1⟩ 1 }

/-- A call is made and answered, and another one comes in. -/
def errands : List ExchangeAction :=
  [.call errand, .serve, .begin 0, .settle 0 (.ok {}), .answer 0, .call errand]

/-- The caller has waited, and there is a permit for its second call. A third one that comes in
while that is out will be refused. -/
theorem metered_of_errands :
    let rush := errands ++ [.call errand, .serve]
    start "home" 1 none = .ok narrow ∧ Patient (narrow.trail errands) ∧
      (narrow.run errands).queue = [.route 1 errand] ∧
      .told (.error "too many forwarded calls in flight") ∈ (narrow.run rush).deeds 2 .serve ∧
      (narrow.run errands).Metered (narrow.trail errands) 1 ∧
      (narrow.run rush).Metered (narrow.trail rush) 1 := by
  have hstart : start "home" 1 none = .ok narrow := by rfl
  have hpast : ∀ actions, Past narrow (narrow.trail actions) (narrow.run actions) :=
    past_trail narrow
  exact ⟨hstart, by decide +kernel, by decide +kernel, by decide +kernel,
    metered_of_past hstart (hpast _), metered_of_past hstart (hpast _)⟩

end Exchange
end Switchboard
