import Switchboard.Proofs.Exchange.Home
import Switchboard.Proofs.Exchange.Losses
import Switchboard.Proofs.Exchange.Permits

/-!
# The registry stops

A registry stops when it comes to the command to do so, or when its queue is empty and nobody can
fill it any more. Both leave the same behind: attempts are broken off, what is still queued is
dismissed, and whoever comes later is told that the registry is no longer running. Only the calls
that have been forwarded go on.

* `due_of_step` is when a registry stops, and `Exchange.Halted` what has become of it when it has.
* `Exchange.Silent` is what stays as it is from then on. `Silent.step` carries it over every action.
* `course_of_past` says how far every call has come, and `Exchange.Delivered` what becomes of one
  that has been forwarded.
* `Exchange.Stopped` is what holds of every later state, and `stops_of_past` puts this together for
  both ways of stopping.
-/

namespace Switchboard
namespace Exchange

variable {e e' e₀ e₁ e₂ : Exchange} {a : ExchangeAction} {c : CallId} {i : Invocation}
  {l since : List (Exchange × ExchangeAction)}

/-! ## How it stops -/

/-- Only a registry that is due stops, and only by its own action. -/
theorem due_of_step (hr : e.running = true) (h : e.step a = some e') (hr' : e'.running = false) :
    a = .serve ∧ e.Due := by
  have ha : a = .serve := by
    by_contra hne
    have hserve : a.isServe = false := Bool.eq_false_iff.2 (mt ExchangeAction.isServe_iff.1 hne)
    exact absurd (hr'.symm.trans ((queue_of_step hserve h).1.trans hr)) (by simp)
  subst ha
  refine ⟨rfl, hr, ?_⟩
  cases hq : e.queue with
  | nil =>
    refine .inr ⟨rfl, ?_⟩
    by_contra hheld
    have hnone : e.step .serve = none := by
      change e.serve = none
      simp only [serve, hr, hq, Bool.not_eq_false] at hheld ⊢
      simp [hheld]
    exact absurd (hnone.symm.trans h) (by simp)
  | cons x rest =>
    by_cases hx : x = .stop
    · exact .inl ⟨rest, by rw [hx]⟩
    · obtain rfl := Option.some.inj ((serve_cons hr hq hx).symm.trans h)
      exact absurd (hr'.symm.trans ((served_react e rest hx).kept.2.trans hr)) (by simp)

/-- A registry that is due stops in the same way, whatever the reason. -/
theorem Due.serve (h : e.Due) : e.step .serve = some { e with queue := e.queue.tail }.halt := by
  obtain ⟨hr, ⟨rest, hq⟩ | ⟨hq, hh⟩⟩ := h
  · rw [serve_stop hr hq, hq, List.tail_cons]
  · have hstep : e.serve = some e.halt := by simp [Exchange.serve, hr, hq, hh]
    rw [hq, List.tail_nil, ← hq]
    exact hstep

/-- Dismissed commands change nothing but what callers and askers wait for. -/
lemma foldl_dismiss_eq (l : List Command) (e : Exchange) :
    l.foldl dismiss e =
      { e with calls := (l.foldl dismiss e).calls, queries := (l.foldl dismiss e).queries } := by
  induction l generalizing e with
  | nil => rfl
  | cons x rest ih =>
    rw [List.foldl_cons, ih]
    cases x <;> rfl

/-- Those who have asked for the sessions by dismissed commands are told that there is no answer. -/
lemma queries_dismiss (l : List Command) (e : Exchange) (q : QueryId) :
    (l.foldl dismiss e).queries.get? q
      = if .list q ∈ l then (e.queries.get? q).map fun _ => .closed else e.queries.get? q := by
  induction l generalizing e with
  | nil => simp
  | cons x rest ih =>
    rw [List.foldl_cons, ih]
    cases x with
    | list k =>
      have hmodify : (e.dismiss (.list k)).queries.get? q
          = if q = k then (e.queries.get? q).map fun _ => .closed else e.queries.get? q := by
        refine (Table.get?_modify ..).trans ?_
        split
        · next hq => rw [hq]
        · rfl
      rw [hmodify]
      by_cases hq : q = k
      · subst hq
        cases e.queries.get? q <;> simp
      · simp [hq]
    | _ => simp [dismiss]

/-! ## Those who ask for the sessions -/

/-- Whoever waits for the sessions has a command in the queue, and every such command is
somebody's. -/
structure Asked (e : Exchange) : Prop where
  waiting : ∀ q, e.queries.get? q = some .waiting → .list q ∈ e.queue
  known : ∀ q, .list q ∈ e.queue → (e.queries.get? q).isSome = true

namespace Asked

variable (k : e.Asked)
include k

lemma congr {extra : List Command} (hqueries : e'.queries = e.queries)
    (hqueue : e'.queue = e.queue ++ extra) (hextra : ∀ q, .list q ∉ extra) : e'.Asked := by
  refine ⟨fun q hq => ?_, fun q hq => ?_⟩
  · rw [hqueue]
    exact List.mem_append_left _ (k.waiting q (hqueries ▸ hq))
  · rw [hqueue, List.mem_append] at hq
    rw [hqueries]
    exact k.known q (hq.resolve_right (hextra q))

lemma same (hqueries : e'.queries = e.queries) (hqueue : e'.queue = e.queue) : e'.Asked :=
  k.congr hqueries (hqueue.trans (List.append_nil _).symm) (by simp)

lemma ask : e.ask.Asked := by
  -- the new request is in the queue, or is answered at once
  by_cases hr : e.running = true
  · have hask : e.ask = { e with
        nextQuery := e.nextQuery + 1
        queries := e.queries.insert e.nextQuery .waiting
        queue := e.queue ++ [.list e.nextQuery] } := by
      simp [Exchange.ask, hr]
    rw [hask]
    refine ⟨fun q hq => ?_, fun q hq => ?_⟩
    · obtain ⟨rfl, -⟩ | hq := Table.get?_of_get?_insert hq
      · simp
      · exact List.mem_append_left _ (k.waiting q hq)
    · rw [List.mem_append] at hq
      rw [Table.get?_insert]
      split
      · rfl
      · next hne => exact k.known q (hq.resolve_right (by simpa using hne))
  · have hask : e.ask = { e with
        nextQuery := e.nextQuery + 1
        queries := e.queries.insert e.nextQuery .closed } := by
      simp [Exchange.ask, hr]
    rw [hask]
    refine ⟨fun q hq => ?_, fun q hq => ?_⟩
    · obtain ⟨-, hq⟩ | hq := Table.get?_of_get?_insert hq
      · exact absurd hq (by simp)
      · exact k.waiting q hq
    · rw [Table.get?_insert]
      split
      · rfl
      · exact k.known q hq

lemma tell {x : Command} (hx : ∀ q, x ≠ .list q) : (e.tell x).Asked := by
  obtain ⟨h, -⟩ | ⟨h, -⟩ := e.tell_cases x <;> rw [h]
  · exact k
  · exact k.congr rfl rfl (by simpa using fun q he => hx q he.symm)

lemma offer (i : Invocation) : (e.offer i).Asked := by
  obtain ⟨-, h⟩ | ⟨message, h⟩ := e.offer_cases i <;> rw [h]
  · exact k.congr rfl rfl (by simp)
  · exact k.same rfl rfl

/-- A request is answered when its command is. -/
lemma served {x : Command} {rest : List Command} (hq : e.queue = x :: rest)
    (hs : e.Served rest x e') : e'.Asked := by
  -- no other command has anything to do with the requests
  have hother : (∀ q, x ≠ .list q) → e'.queries = e.queries → e'.queue = rest → e'.Asked := by
    intro hx hqueries hqueue
    refine ⟨fun q hw => ?_, fun q hm => ?_⟩
    · have hmem := k.waiting q (hqueries ▸ hw)
      rw [hq, List.mem_cons] at hmem
      rw [hqueue]
      exact hmem.resolve_left fun he => hx q he.symm
    · rw [hqueries]
      exact k.known q (hq ▸ List.mem_cons_of_mem _ (hqueue ▸ hm))
  cases hs with
  | @listed query =>
    have hget : ∀ q, (e.queries.modify query fun _ => .answered e.registry.listing).get? q
        = if q = query then (e.queries.get? query).map fun _ => .answered e.registry.listing
          else e.queries.get? q := fun q => Table.get?_modify ..
    refine ⟨fun q hw => ?_, fun q hm => ?_⟩
    · change (e.queries.modify query _).get? q = _ at hw
      rw [hget] at hw
      split at hw
      · cases hquery : e.queries.get? query <;> simp [hquery] at hw
      · next hne =>
        have hmem := k.waiting q hw
        rw [hq, List.mem_cons] at hmem
        exact hmem.resolve_left fun he => hne (Command.list.inj he)
    · have hsome := k.known q (hq ▸ List.mem_cons_of_mem _ hm)
      change ((e.queries.modify query _).get? q).isSome = true
      rw [hget]
      split
      · next he =>
        rw [he] at hsome
        rw [Option.isSome_map]
        exact hsome
      · exact hsome
  | _ => exact hother (by simp) rfl rfl

/-- When the registry has stopped nobody waits. -/
theorem halt (h : e.Due) : ({ e with queue := e.queue.tail } : Exchange).halt.Asked := by
  refine ⟨fun q hq => ?_, fun q hq => absurd hq (by simp [Exchange.halt])⟩
  have hqueries := queries_dismiss e.queue.tail { e with queue := e.queue.tail } q
  change (e.queue.tail.foldl dismiss { e with queue := e.queue.tail }).queries.get? q
    = some .waiting at hq
  rw [hqueries] at hq
  split at hq
  · cases hquery : e.queries.get? q <;> simp [hquery] at hq
  · next hnot =>
    refine absurd ?_ hnot
    have hmem := k.waiting q hq
    obtain ⟨-, ⟨rest, hrest⟩ | ⟨hnil, -⟩⟩ := h
    · rw [hrest] at hmem ⊢
      simpa using hmem
    · exact absurd hmem (by simp [hnil])

/-- Requests are where they belong after every step. -/
lemma step (h : e.step a = some e') : e'.Asked := by
  cases change_of_step h with
  | asked => exact k.ask
  | called | invoked => exact k.offer _
  | discovered | shut | passed => exact k.congr rfl rfl (by simp)
  | stopped hr =>
    obtain ⟨-, hdue⟩ := due_of_step hr h rfl
    rw [← Option.some.inj (hdue.serve.symm.trans h)]
    exact k.halt hdue
  | served _ hq hs => exact k.served hq hs
  | @concluded id domain address outcome =>
    have k' : ({ e with dials := e.dials.erase id } : Exchange).Asked := k.same rfl rfl
    exact k'.tell (by simp)
  | @noticed id w =>
    have k' : ({ e with watches := e.watches.erase id } : Exchange).Asked := k.same rfl rfl
    exact k'.tell (by simp)
  | _ => exact k.same rfl rfl

end Asked

/-- Requests are where they belong in every history. -/
lemma asked_of_past {name : String} {permits : Nat} {refusal : Option SessionError}
    (h₀ : start name permits refusal = .ok e₀) (h : Past e₀ l e) : e.Asked := by
  induction h with
  | started =>
    rw [eq_of_start h₀]
    exact ⟨fun q hq => absurd hq (by simp), fun q hq => absurd hq (by simp)⟩
  | step _ hs ih => exact ih.step hs

/-! ## What stays as it is -/

/-- An exchange whose registry has stopped, compared with what it was just then: nothing is queued
or attempted, nothing is provided or forwarded that was not before, and nobody waits for the
sessions. -/
structure Silent (e₁ e : Exchange) : Prop where
  running : e.running = false
  queue : e.queue = []
  dials : e.dials = ∅
  table : e.registry.table = e₁.registry.table
  /-- No registration has been given out. -/
  next : e.provider.next = e₁.provider.next
  provided : ∀ r pattern, e.provider.provided.get? r = some pattern →
    e₁.provider.provided.get? r = some pattern
  forwards : ∀ c f, e.forwards.get? c = some f →
    ∃ stage, e₁.forwards.get? c = some { f with stage }
  withdrawals : e.withdrawals ⊆ e₁.withdrawals
  forgets : e.forgets <:+ e₁.forgets
  queries : ∀ q, e.queries.get? q ≠ some .waiting

/-- A registry that has stopped is told nothing. -/
lemma tell_of_stopped (hr : e.running = false) (x : Command) : e.tell x = e := by
  unfold tell send
  split
  · simp [hr]
  · rfl

namespace Silent

variable (q : e₁.Silent e)
include q

lemma ask : e.ask = { e with
    nextQuery := e.nextQuery + 1
    queries := e.queries.insert e.nextQuery .closed } := by
  simp [Exchange.ask, q.running]

/-- A registry that has stopped stays silent with every step. -/
lemma step (h : e.step a = some e') : e₁.Silent e' := by
  -- nothing can be sent and no attempt is left; the rest only loses what it has
  have hstopped : e.running ≠ true := by simp [q.running]
  have hnone : ∀ {id : SessionId} {d : Dial}, e.dials.get? id ≠ some d := by simp [q.dials]
  cases change_of_step h with
  | stopped hr | passed _ _ hr | served hr => exact absurd hr hstopped
  | discovered hh | shut hh => exact absurd (eq_of_send (of_handle h).2).1 hstopped
  | dialed hd | connected hd | unreachable hd | provided hd | unprovided hd | concluded hd =>
    exact absurd hd hnone
  | called | invoked =>
    rw [offer_of_closed (.inl q.running)]
    exact { q with }
  | asked =>
    rw [q.ask]
    refine { q with queries := fun k hk => ?_ }
    obtain ⟨-, hk⟩ | hk := Table.get?_of_get?_insert hk
    · exact absurd hk (by simp)
    · exact q.queries k hk
  | @noticed id w =>
    have hr : ({ e with watches := e.watches.erase id } : Exchange).running = false := q.running
    rw [tell_of_stopped hr]
    exact { q with }
  | @withdrew r _ =>
    refine { q with
      provided := fun r' pattern hr' => ?_
      withdrawals := fun r' hr' => q.withdrawals (List.mem_of_mem_erase hr') }
    exact q.provided r' pattern (Table.get?_of_get?_erase hr')
  | begun hf | settled hf =>
    refine { q with forwards := fun c f hc => ?_ }
    obtain ⟨rfl, rfl⟩ | hc := Table.get?_of_get?_insert hc
    · obtain ⟨stage, h₁⟩ := q.forwards _ _ hf
      exact ⟨stage, h₁⟩
    · exact q.forwards c f hc
  | answered =>
    exact { q with forwards := fun c f hc => q.forwards c f (Table.get?_of_get?_erase hc) }
  | forgot => exact { q with forgets := (List.tail_suffix _).trans q.forgets }
  | shared | released | left | lost | followed | unpassed | unfollowed => exact { q with }

end Silent

lemma silent_of_past (q : e₁.Silent e) (h : Past e since e') : e₁.Silent e' := by
  induction h with
  | started => exact q
  | step _ hs ih => exact ih.step hs

/-! ## What it leaves -/

/-- What a registry that stops leaves behind, in the step from `e` to `e₁`. -/
structure Halted (e e₁ : Exchange) : Prop where
  /-- Nothing else has changed. A follower that waits in line has given up. -/
  eq : e₁ = { e with
    running := false
    queue := []
    dials := ∅
    following := e.following && e.followerWait = 0
    followerWait := 0
    calls := e₁.calls
    queries := e₁.queries }
  /-- The attempts that are broken off are those of the sessions that are being made. -/
  attempts : ∀ id d, e.dials.get? id = some d →
    ∃ address, (d.domain, .connecting id address) ∈ e.registry.listing
  /-- A call in the queue is given up without a reply. -/
  dropped : ∀ c i, .route c i ∈ e.queue → e₁.slot c = .abandoned
  kept : ∀ c, (∀ i, .route c i ∉ e.queue) → e₁.calls.get? c = e.calls.get? c
  /-- Whoever waits for the sessions is told that the registry is no longer running. -/
  closed : ∀ q, .list q ∈ e.queue → e₁.queries.get? q = some .closed
  unasked : ∀ q, .list q ∉ e.queue → e₁.queries.get? q = e.queries.get? q

/-- The registry comes to the command to stop, if any, and to no other. -/
lemma Due.mem_tail {x : Command} (h : e.Due) (hx : x ≠ .stop) :
    x ∈ e.queue.tail ↔ x ∈ e.queue := by
  obtain ⟨-, ⟨rest, hq⟩ | ⟨hq, -⟩⟩ := h <;> simp [hq, hx]

/-- What is left in the queue after the command to stop has the same requests of a call. -/
lemma Due.routes_tail (h : e.Due) : e.queue.tail.filter (·.isRouteOf c) = e.routes c := by
  obtain ⟨-, ⟨rest, hq⟩ | ⟨hq, -⟩⟩ := h <;> simp [hq, routes, Command.isRouteOf]

/-- There are no calls at the start that might be answered before their end. -/
lemma answersLast_of_start {name : String} {permits : Nat} {refusal : Option SessionError}
    (h : start name permits refusal = .ok e) : e.AnswersLast := by
  rw [eq_of_start h]
  exact fun _ _ hc => absurd hc (by simp)

/-- When its time has come, the registry halts with its next step. -/
lemma halted_of_past {name : String} {permits : Nat} {refusal : Option SessionError}
    (h₀ : start name permits refusal = .ok e₀) (h : Past e₀ l e) (hdue : e.Due) :
    e.Halted ({ e with queue := e.queue.tail } : Exchange).halt := by
  have t := tallied_of_reaches (tallied_of_start h₀) h.reaches hdue.1
  have o := lined_of_past (lined_of_start h₀) h
  have k := asked_of_past h₀ h
  have last := answersLast_of_past (answersLast_of_start h₀) (lined_of_start h₀) h
  have hcalls : ∀ c, ({ e with queue := e.queue.tail } : Exchange).halt.calls.get? c
      = (e.calls.get? c).map fun slot =>
        ((e.routes c).map fun _ => .dropped).foldl Deed.reach slot := fun c => by
    rw [← hdue.routes_tail]
    exact calls_dismiss e.queue.tail { e with queue := e.queue.tail }
  have hqueries : ∀ q, ({ e with queue := e.queue.tail } : Exchange).halt.queries.get? q
      = if .list q ∈ e.queue then (e.queries.get? q).map fun _ => .closed
        else e.queries.get? q := fun q => by
    simp only [← hdue.mem_tail (by simp : Command.list q ≠ .stop)]
    exact queries_dismiss e.queue.tail { e with queue := e.queue.tail } q
  refine ⟨?_, fun id d hd => ?_, fun c i hc => ?_, fun c hc => ?_, fun q hq => ?_, fun q hq => ?_⟩
  · conv_lhs => rw [halt, foldl_dismiss_eq]
    rfl
  · obtain ⟨address, hget⟩ := t.connecting_of_dial hd
    exact ⟨address, Table.mem_entries_iff.2 hget⟩
  · obtain ⟨-, hroutes, -⟩ := o.of_mem hc
    rw [slot, hcalls, hroutes]
    cases hslot : e.calls.get? c with
    | none => rfl
    | some slot =>
      cases slot with
      | waiting | abandoned => rfl
      | answered reply =>
        -- a call in the queue has no answer
        exact absurd (hroutes.symm.trans (last c reply hslot).1) (by simp)
  · have hroutes : e.routes c = [] := by
      rcases o.queued c with hroutes | ⟨i, hroutes, -⟩
      · exact hroutes
      · have hmem : .route c i ∈ e.routes c := by rw [hroutes, List.mem_singleton]
        exact absurd (List.mem_filter.1 hmem).1 (hc i)
    rw [hcalls, hroutes]
    exact map_reach_nil _
  · obtain ⟨slot, hslot⟩ := Option.isSome_iff_exists.1 (k.known q hq)
    rw [hqueries, if_pos hq, hslot]
    rfl
  · rw [hqueries, if_neg hq]

lemma Halted.silent (h : e.Halted e₁) (k : e₁.Asked) : e₁.Silent e₁ := by
  have heq := h.eq
  refine ⟨by rw [heq], by rw [heq], by rw [heq], rfl, rfl, fun _ _ hr => hr, fun c f hf => ?_,
    List.Subset.refl _, List.suffix_refl _, fun q hq => ?_⟩
  · exact ⟨f.stage, hf⟩
  · have hmem := k.waiting q hq
    rw [heq] at hmem
    exact absurd hmem List.not_mem_nil

/-! ## Calls that have been forwarded -/

section course

variable {m : Exchange} {ds : List Deed}

/-- A call that is on its way has been judged, and then forwarded. -/
lemma Course.underway (k : e.Course m since c i ds) (o : e.Lined) {f : Forward}
    (hf : e.forwards.get? c = some f) :
    ∃ r ds', ds = .judged r :: ds' ∧
      e.Underway c f.connection f.procedure f.arguments ds' := by
  have hgone : ¬ e.Gone c := fun g => absurd (g.forward.symm.trans hf) (by simp)
  cases k with
  | closed _ g | full _ _ _ g | dropped _ _ _ _ _ g | refused _ _ g => exact absurd g hgone
  | queued _ _ hq =>
    have hnone := (o.of_mem (show .route c i ∈ e.queue by rw [hq]; simp)).2.2
    exact absurd (hnone.symm.trans hf) (by simp)
  | forwarded _ _ u =>
    refine ⟨_, _, rfl, ?_⟩
    cases u with
    | ready hf' =>
      obtain rfl := Option.some.inj (hf'.symm.trans hf)
      exact .ready hf'
    | calling hf' =>
      obtain rfl := Option.some.inj (hf'.symm.trans hf)
      exact .calling hf'
    | answering hf' =>
      obtain rfl := Option.some.inj (hf'.symm.trans hf)
      exact .answering hf'
    | answered g => exact absurd g hgone

/-- When the queue is empty, whoever has heard nothing waits for a call that is on its way. -/
lemma Course.forward_of_waiting (k : e.Course m since c i ds) (hq : e.queue = [])
    (hw : Deed.heard ds = .waiting) : ∃ f, e.forwards.get? c = some f := by
  cases k with
  | closed | full | dropped | refused =>
    exact absurd hw (by simp [Deed.heard, Deed.reach, ReplySlot.answer, ReplySlot.abandon])
  | queued _ _ hq' => exact absurd (hq'.symm.trans hq) (by simp)
  | forwarded _ _ u =>
    cases u with
    | ready hf | calling hf | answering hf => exact ⟨_, hf⟩
    | answered => exact absurd hw (by simp [Deed.heard, Deed.reach, ReplySlot.answer])

end course

/-- Every call that has come in has its course, and its caller hears of it. -/
theorem course_of_past {name : String} {permits : Nat} {refusal : Option SessionError}
    (h₀ : start name permits refusal = .ok e₀) (h : Past e₀ l e) (hc : c < e.nextCall) :
    ∃ m since i, e.Course m since c i (record l c) ∧ e.Hears l c (record l c) := by
  induction h with
  | started =>
    rw [eq_of_start h₀] at hc
    exact absurd hc (Nat.not_lt_zero _)
  | @step l e e' a h hs ih =>
    have o := lined_of_past (lined_of_start h₀) h
    rw [record_cons]
    by_cases hlt : c < e.nextCall
    · obtain ⟨m, since, i, hcourse, hears⟩ := ih hlt
      exact ⟨m, _, i, hcourse.step o hs, hears.step hlt hs⟩
    · -- it has come in by this action
      obtain rfl : c = e.nextCall :=
        Nat.le_antisymm (Nat.le_of_lt_succ (Nat.lt_of_lt_of_le hc (nextCall_le_succ hs)))
          (Nat.le_of_not_lt hlt)
      obtain ⟨i, hi⟩ := Option.isSome_iff_exists.1 (offers_of_nextCall_lt hs hc)
      obtain ⟨hcourse, hcalls⟩ := course_of_offer o hi hs
      rw [record_of_unused (lined_of_start h₀) h (Nat.le_refl _), List.nil_append]
      exact ⟨e, [], i, hcourse, .inl hcalls⟩

/-- The numbers of calls only rise. -/
lemma nextCall_of_past (h : Past e₀ l e) : e₀.nextCall ≤ e.nextCall := by
  induction h with
  | started => exact Nat.le_refl _
  | step _ hs ih => exact Nat.le_trans ih (nextCall_of_step hs)

/-- A slot shows what the caller has heard, if it has not left. -/
lemma Hears.slot {ds : List Deed} (k : e.Hears l c ds) :
    e.slot c = Deed.heard ds ∨ e.slot c = .abandoned ∧ ∃ s, (s, .leave c) ∈ l := by
  rcases k with hheard | ⟨hleft, hs⟩
  · left
    rw [Exchange.slot, hheard]
    rfl
  · right
    rw [Exchange.slot, hleft]
    exact ⟨rfl, hs⟩

/-- What becomes of a call that was on its way when the registry stopped, as `f`. `l` is all that
has happened. -/
structure Delivered (e : Exchange) (l : List (Exchange × ExchangeAction)) (c : CallId)
    (f : Forward) : Prop where
  /-- The registry has come to it, and it goes on as any other call that has been forwarded. -/
  underway : ∃ r ds, record l c = .judged r :: ds ∧
    e.Underway c f.connection f.procedure f.arguments ds
  /-- Its caller hears what is done about it, unless it leaves before. -/
  heard : e.slot c = Deed.heard (record l c) ∨ e.slot c = .abandoned ∧ ∃ s, (s, .leave c) ∈ l
  /-- If it has not ended, then it can, whatever comes of it where it is made. -/
  ends : ∀ outcome, e.Ends c outcome 3 (record l c)

/-- A call that is in hand at some point of a history is delivered in what follows. -/
lemma delivered_of_past {name : String} {permits : Nat} {refusal : Option SessionError}
    (h₀ : start name permits refusal = .ok e₀) (h : Past e₀ l e₁) (h' : Past e₁ since e)
    {f : Forward} (hf : e₁.forwards.get? c = some f) : e.Delivered (since ++ l) c f := by
  have o := lined_of_past (lined_of_start h₀) h
  have hlt := o.lt_of_forward hf
  have hall := h.trans h'
  obtain ⟨m, before, i, hcourse, -⟩ := course_of_past h₀ h hlt
  obtain ⟨r, ds, hrecord, u⟩ := hcourse.underway o hf
  have hlater := u.past o h'
  have hjudged : record (since ++ l) c = .judged r :: (ds ++ record since c) := by
    rw [record_append, hrecord, List.cons_append]
  refine ⟨⟨r, _, hjudged, hlater⟩, ?_, fun outcome => ?_⟩
  · have hlt' : c < e.nextCall := Nat.lt_of_lt_of_le hlt (nextCall_of_past h')
    obtain ⟨-, -, -, -, hears⟩ := course_of_past h₀ hall hlt'
    exact hears.slot
  · rw [hjudged]
    exact hlater.ends outcome

/-! ## From then on -/

/-- The registry does nothing any more, and no attempt takes another step. -/
structure Idle (e : Exchange) : Prop where
  serve : e.step .serve = none
  dial : ∀ id, e.step (.dial id) = none
  connect : ∀ id connection, e.step (.connect id connection) = none
  provide : ∀ id accepted, e.step (.provide id accepted) = none
  conclude : ∀ id, e.step (.conclude id) = none

/-- What holds of an exchange `e` whose registry has stopped. It was `e₁` just then, and `l` is all
that has happened. -/
structure Stopped (e₁ e : Exchange) (l : List (Exchange × ExchangeAction)) : Prop where
  silent : e₁.Silent e
  idle : e.Idle
  /-- A call that comes in is answered at once, whichever registration or handle it uses. -/
  invoked : ∀ a i, a = .invoke i ∨ (a = .call i ∧ e.handles ≠ 0) →
    ∃ e', e.step a = some e' ∧ e'.queue = [] ∧
      e'.slot e.nextCall = .answered (.error "session registry is no longer running")
  /-- Nothing can be told the registry, through a handle or otherwise. -/
  closed : (∀ x, e.send x = none) ∧ (∀ info, e.step (.discover info) = none) ∧
    e.step .shutdown = none
  /-- Whoever asks for the sessions is told that the registry is no longer running. -/
  asked : e.handles ≠ 0 → ∃ e', e.step .ask = some e' ∧ e'.queue = [] ∧
    e'.queries.get? e.nextQuery = some .closed
  /-- Calls that were on their way go on. -/
  delivered : ∀ c f, e₁.forwards.get? c = some f → e.Delivered l c f
  /-- Nobody waits for anything else. -/
  waiting : ∀ c < e.nextCall, e.slot c = .waiting →
    ∃ f stage, e₁.forwards.get? c = some f ∧ e.forwards.get? c = some { f with stage }

section silent

variable (q : e₁.Silent e)
include q

lemma Silent.idle : e.Idle := by
  have hnone : ∀ id, e.dials.get? id = none := by simp [q.dials]
  exact
    { serve := by simp [Exchange.step, serve, q.running]
      dial := fun id => by simp [Exchange.step, dial, hnone]
      connect := fun id connection => by simp [Exchange.step, connect, hnone]
      provide := fun id accepted => by simp [Exchange.step, provide, hnone]
      conclude := fun id => by simp [Exchange.step, conclude, hnone] }

lemma Silent.send (x : Command) : e.send x = none := by
  simp [Exchange.send, q.running]

/-- A silent registry refuses new calls at once. -/
lemma Silent.invoked (i : Invocation) : (e.offer i).queue = [] ∧
    (e.offer i).slot e.nextCall = .answered (.error "session registry is no longer running") := by
  rw [offer_of_closed (.inl q.running)]
  refine ⟨q.queue, ?_⟩
  rw [slot, Table.get?_insert, if_pos rfl]
  rfl

/-- A silent registry tells who asks that it is closed. -/
lemma Silent.asked : e.ask.queue = [] ∧ e.ask.queries.get? e.nextQuery = some .closed := by
  rw [q.ask]
  exact ⟨q.queue, (Table.get?_insert ..).trans (if_pos rfl)⟩

end silent

/-- How a registry stops. `l` has happened since the start. -/
structure Stops (e : Exchange) (l : List (Exchange × ExchangeAction)) : Prop where
  /-- It does so only by itself, and only when it is due. -/
  only : ∀ a e', e.step a = some e' → e.running = true → e'.running = false → a = .serve ∧ e.Due
  /-- When nobody keeps its queue open, it handles what is in it, until it is due. -/
  drains : e.running = true → e.isHeld = false → ∃ own e', Past e own e' ∧
    (∀ p ∈ own, p.2 = .serve) ∧ own.length ≤ e.queue.length ∧ e'.Due
  /-- When it is due it can stop, and leaves the same behind either way. -/
  leaves : e.Due → ∃ e₁, e.step .serve = some e₁ ∧ e.Halted e₁ ∧
    ∀ since e₂, Past e₁ since e₂ → e₁.Stopped e₂ (since ++ (e, .serve) :: l)

/-- When nobody holds the queue, the registry works it off, and then its time has come. -/
lemma due_of_unheld (hr : e.running = true) (hh : e.isHeld = false) :
    ∃ own e', Past e own e' ∧ (∀ p ∈ own, p.2 = .serve) ∧ own.length ≤ e.queue.length ∧
      e'.Due := by
  generalize hq : e.queue = commands
  -- over the queue, which gets no longer without anybody to hold it
  induction commands generalizing e with
  | nil => exact ⟨[], e, .started, by simp, Nat.le_refl _, hr, .inr ⟨hq, hh⟩⟩
  | cons x rest ih =>
    by_cases hx : x = .stop
    · exact ⟨[], e, .started, by simp, Nat.zero_le _, hr, .inl ⟨rest, by rw [hq, hx]⟩⟩
    · have hs := serve_cons hr hq hx
      have hserved := served_react e rest hx
      obtain ⟨hqueue, hrunning⟩ := hserved.kept
      have hheld : (e.acted rest (e.registry.react e.nextSession x)).isHeld = false := by
        apply Bool.eq_false_iff.2
        intro hheld
        exact absurd (hh.symm.trans
          ((transition_of_step hs).isHeld (hrunning.trans hr) hheld)) (by simp)
      obtain ⟨own, e', hpast, hown, hlength, hdue⟩ := ih (hrunning.trans hr) hheld hqueue
      refine ⟨own ++ [(e, .serve)], e', hpast.cons hs, fun p hp => ?_, ?_, hdue⟩
      · rcases List.mem_append.1 hp with hp | hp
        · exact hown p hp
        · rw [List.mem_singleton.1 hp]
      · rw [List.length_append, List.length_singleton, List.length_cons]
        exact Nat.succ_le_succ hlength

/-- However a registry stops, nothing is begun on its behalf any more, whoever comes is told so, and
what has been forwarded is still answered. -/
theorem stops_of_past {name : String} {permits : Nat} {refusal : Option SessionError}
    (h₀ : start name permits refusal = .ok e₀) (h : Past e₀ l e) : e.Stops l := by
  refine ⟨fun a e' hs hr hr' => due_of_step hr hs hr', due_of_unheld, fun hdue => ?_⟩
  have hserve := hdue.serve
  have hhalted := halted_of_past h₀ h hdue
  generalize ({ e with queue := e.queue.tail } : Exchange).halt = e₁ at hserve hhalted
  have h₁ := h.step hserve
  refine ⟨e₁, hserve, hhalted, fun since e₂ h₂ => ?_⟩
  -- everything later follows from the silence of the registry
  have q := silent_of_past (hhalted.silent (asked_of_past h₀ h₁)) h₂
  refine ⟨q, q.idle, fun a i ha => ?_, ⟨q.send, fun info => ?_, ?_⟩, fun hh => ?_,
    fun c f hf => delivered_of_past h₀ h₁ h₂ hf, fun c hc hw => ?_⟩
  · have hstep : e₂.step a = some (e₂.offer i) := by
      obtain rfl | ⟨rfl, hh⟩ := ha
      · rfl
      · exact if_neg hh
    exact ⟨_, hstep, q.invoked i⟩
  · simp [step, q.send]
  · simp [step, q.send]
  · exact ⟨_, if_neg hh, q.asked⟩
  · obtain ⟨m, before, i, hcourse, hears⟩ := course_of_past h₀ (h₁.trans h₂) hc
    have hheard : Deed.heard (record (since ++ (e, .serve) :: l) c) = .waiting := by
      rcases hears.slot with hslot | ⟨hslot, -⟩
      · exact hslot.symm.trans hw
      · exact absurd (hslot.symm.trans hw) (by simp)
    obtain ⟨f, hf⟩ := hcourse.forward_of_waiting q.queue hheard
    obtain ⟨stage, hf₁⟩ := q.forwards c f hf
    exact ⟨_, f.stage, hf₁, hf⟩

/-- A call is on its way, and an attempt to reach a domain has begun. -/
def busy : List ExchangeAction :=
  [.call errand, .serve, .discover ⟨"10.0.0.5", 9000, "alpha", "r1"⟩, .serve, .dial 2]

/-- The registry comes to the command to stop, with a call and a request for the sessions behind it,
or the last handle has been given up. -/
theorem stops_of_busy :
    let told := busy ++ [.shutdown, .call errand, .ask]
    let left := busy ++ [.release]
    start "home" 4 none = .ok alone ∧ Past alone (alone.trail told) (alone.run told) ∧
      Past alone (alone.trail left) (alone.run left) ∧
      (alone.run told).queue = [.stop, .route 1 errand, .list 0] ∧ (alone.run told).Due ∧
      (alone.run left).queue = [] ∧ (alone.run left).Due ∧
      ((alone.run told).dials.get? 2).map Dial.stage = some .dialing ∧
      ((alone.run left).forwards.get? 0).map Forward.stage = some .ready ∧
      (alone.run told).Stops (alone.trail told) ∧ (alone.run left).Stops (alone.trail left) := by
  intro told left
  have htold := past_trail alone told
  have hleft := past_trail alone left
  have htoldq : (alone.run told).queue = [.stop, .route 1 errand, .list 0] := by decide +kernel
  have hleftq : (alone.run left).queue = [] := by decide +kernel
  exact ⟨start_alone, htold, hleft, htoldq, ⟨by decide +kernel, .inl ⟨_, htoldq⟩⟩, hleftq,
    ⟨by decide +kernel, .inr ⟨hleftq, by decide +kernel⟩⟩, by decide +kernel, by decide +kernel,
    stops_of_past start_alone htold, stops_of_past start_alone hleft⟩

end Exchange
end Switchboard
