import Switchboard.Proofs.Exchange.Sessions

/-!
# The life of a session

Sessions come and go in one way only: a session begins with an attempt, becomes usable when the
attempt succeeds, and is removed when the attempt fails or the connection is lost.

* `entry_of_transition` is one transition, `entry_of_reaches` a whole run: what has been removed
  does not come back.
* `Exchange.Paired` collects what holds of sessions and tasks in every state, and
  `paired_of_past` says that it does; `unpaired_of_belated` is why a task has to be heard for it.
-/

namespace Switchboard

/-- Whether a session is later the same session: unchanged, or usable after an attempt. -/
inductive Entry.Becomes : Entry → Entry → Prop
  | same (x : Entry) : Becomes x x
  | joined (id : SessionId) (address : Endpoint) (link : Link) :
    Becomes (.connecting id address) (.connected id address link)

/-- Whether a report is about something else than the domain's present session, so that the
registry has no use for it. -/
def Registry.isStale (r : Registry) : Command → Bool
  | .attempted domain id _ => !r.isConnecting domain id
  | .lost domain id => (r.table.get? domain).all fun entry => entry.id ≠ id
  | _ => false

lemma Entry.Becomes.trans {x y z : Entry} (h : x.Becomes y) (h' : y.Becomes z) :
    x.Becomes z := by
  cases h with
  | same => exact h'
  | joined id address link =>
    cases h'
    exact .joined id address link

/-- A session keeps its name for as long as it lasts. -/
lemma Entry.Becomes.id_eq {x y : Entry} (h : x.Becomes y) : x.id = y.id := by
  cases h <;> rfl

namespace Exchange

/-! ## Progress -/

/-- Names of attempts are given out in ascending order. -/
lemma Transition.nextSession_le {e e' : Exchange} {a : ExchangeAction} (h : e.Transition a e')
    (hr : e'.running = true) : e.nextSession ≤ e'.nextSession := by
  cases h with
  | aside h => exact Nat.le_of_eq h.nextSession.symm
  | served _ h => cases h <;> exact Nat.le_succ _
  | stopped h => exact absurd hr (by simp [h])
  | _ => exact Nat.le_refl _

/-- A session was there before the transition, or begins with it. -/
theorem entry_of_transition {e e' : Exchange} {a : ExchangeAction} (h : e.Transition a e')
    (hr : e'.running = true) {d : String} {x' : Entry} (hx : e'.registry.table.get? d = some x') :
    (∃ x, e.registry.table.get? d = some x ∧ x.Becomes x') ∨
      (e.registry.table.get? d = none ∧ ∃ address, x' = .connecting e.nextSession address) := by
  have hsame : e'.registry.table = e.registry.table →
      ∃ x, e.registry.table.get? d = some x ∧ x.Becomes x' := fun ht => by
    rw [ht] at hx
    exact ⟨x', hx, .same x'⟩
  have herase : ∀ domain, (e.registry.table.erase domain).get? d = some x' →
      ∃ x, e.registry.table.get? d = some x ∧ x.Becomes x' := fun domain hget => by
    rw [Table.get?_erase] at hget
    split at hget
    · exact absurd hget (by simp)
    · exact ⟨x', hget, .same x'⟩
  -- only a new attempt and a success write to the table
  cases h with
  | aside h => exact .inl (hsame h.table)
  | stopped h => exact absurd hr (by simp [h])
  | advanced | provided | concluded | unheard | noticed | unnoticed | withdrew =>
    exact .inl (hsame rfl)
  | served hq h =>
    cases h with
    | known | unusable | discarded | ignored | refused | forwarded | listed =>
      exact .inl (hsame rfl)
    | failed | broken | ended => exact .inl (herase _ hx)
    | @begun info address hnone _ =>
      change (e.registry.table.insert _ _).get? d = _ at hx
      rw [Table.get?_insert] at hx
      split at hx
      · next hd =>
        rw [hd]
        exact .inr ⟨hnone, address, (Option.some.inj hx).symm⟩
      · exact .inl ⟨x', hx, .same x'⟩
    | @joined domain id address link hget =>
      change (e.registry.table.insert _ _).get? d = _ at hx
      rw [Table.get?_insert] at hx
      split at hx
      · next hd =>
        rw [hd, ← Option.some.inj hx]
        exact .inl ⟨_, hget, .joined id address link⟩
      · exact .inl ⟨x', hx, .same x'⟩

/-- A session with a name that had been given out was there under the same domain, at the same
stage or before it. -/
theorem entry_of_reaches {e e' : Exchange} (h : e.Reaches e') (hr : e'.running = true)
    {d : String} {x' : Entry} (hx : e'.registry.table.get? d = some x')
    (hid : x'.id < e.nextSession) :
    ∃ x, e.registry.table.get? d = some x ∧ x.Becomes x' := by
  have hle : ∀ {m : Exchange}, e.Reaches m → m.running = true → e.nextSession ≤ m.nextSession :=
    fun hm hrun => hm.invariant hrun (Nat.le_refl _) fun _ _ _ _ _ hs hrun' hle =>
      Nat.le_trans hle ((transition_of_step hs).nextSession_le hrun')
  induction h generalizing x' with
  | refl => exact ⟨x', hx, .same x'⟩
  | @step m n a hm hs ih =>
    have htrans := transition_of_step hs
    have hrun := htrans.running hr
    obtain ⟨y, hy, hbecomes⟩ | ⟨_, address, hnew⟩ := entry_of_transition htrans hr hx
    · obtain ⟨x, hget, hb⟩ := ih hrun hy (by rw [hbecomes.id_eq]; exact hid)
      exact ⟨x, hget, hb.trans hbecomes⟩
    · -- a session that begins has a name that was not given out before
      have hge := hle hm hrun
      rw [hnew] at hid
      exact absurd hid (Nat.not_lt.2 hge)

/-! ## Sessions and tasks -/

/-- Sessions and tasks belong together one to one, after all of `l`. A count of attempts or watches
takes in the tasks and the reports of finished tasks that are still in the queue. -/
structure Paired (e : Exchange) (l : List (Exchange × ExchangeAction)) : Prop where
  /-- A domain has one session at most. -/
  unique : (e.registry.listing.map Prod.fst).Nodup
  /-- A session other than the home session is being made, by one attempt, or usable, under one
  watch. Only a session whose task has ended unheard may have none. -/
  tasks : ∀ d x, (d, x) ∈ e.registry.listing → x.isHome = false →
    (∃ id address, x = .connecting id address ∧ e.lookouts d id = 0 ∧
      e.attempts d id ≤ 1 ∧ (e.attempts d id = 1 ∨ Unheard l id)) ∨
    (∃ id address link, x = .connected id address link ∧ e.attempts d id = 0 ∧
      e.lookouts d id ≤ 1 ∧ (e.lookouts d id = 1 ∨ Unheard l id))
  /-- As long as anything keeps the queue open, every task has been heard. -/
  heard : e.isHeld = true → ∀ id, ¬Unheard l id
  /-- There is no attempt without a session that is being made. -/
  attempts : ∀ d id, 0 < e.attempts d id →
    ∃ address, (d, .connecting id address) ∈ e.registry.listing
  /-- There is no watch without a usable session. -/
  lookouts : ∀ d id, 0 < e.lookouts d id →
    ∃ address link, (d, .connected id address link) ∈ e.registry.listing
  /-- No report is out of date. -/
  current : ∀ c ∈ e.queue, e.registry.isStale c = false
  /-- A domain has one attempt at most. -/
  single : ∀ d id id', 0 < e.attempts d id → 0 < e.attempts d id' → id = id'
  /-- A session that an action brings begins with an attempt and a name of its own. -/
  begins : ∀ a e', e.step a = some e' → e'.running = true →
    ∀ d x', (d, x') ∈ e'.registry.listing →
      (∃ x, (d, x) ∈ e.registry.listing ∧ x.Becomes x') ∨
        ((∀ x, (d, x) ∉ e.registry.listing) ∧ ∃ address, x' = .connecting e.nextSession address)
  /-- A session whose name has been given out never returns once it is removed, and while it
  stays it only becomes usable. -/
  onward : ∀ e', e.Reaches e' → e'.running = true →
    ∀ d x', (d, x') ∈ e'.registry.listing → x'.id < e.nextSession →
      ∃ x, (d, x) ∈ e.registry.listing ∧ x.Becomes x'

namespace TalliedFor

variable {e : Exchange} {kept : SessionId → Prop} (t : e.TalliedFor kept)
include t

/-- A session other than the home session has the task that its stage asks for. -/
lemma task_cases {d : String} {x : Entry} (hx : e.registry.table.get? d = some x)
    (hhome : x.isHome = false) :
    (∃ id address, x = .connecting id address ∧ e.lookouts d id = 0 ∧
      e.attempts d id ≤ 1 ∧ (kept id → e.attempts d id = 1)) ∨
    (∃ id address link, x = .connected id address link ∧ e.attempts d id = 0 ∧
      e.lookouts d id ≤ 1 ∧ (kept id → e.lookouts d id = 1)) := by
  cases x with
  | home => exact absurd hhome (by simp [Entry.isHome])
  | connecting id address =>
    have hb := t.bounds_of_connecting hx id
    have hge := t.le_attempts d id
    rw [Registry.isConnecting_iff.2 ⟨address, hx⟩] at hge
    rw [decide_eq_true rfl] at hb
    exact .inl ⟨id, address, rfl, hb.2, hb.1, fun hk => Nat.le_antisymm hb.1 (hge hk)⟩
  | connected id address link =>
    have hb := t.bounds_of_joined hx id
    have hge := t.le_lookouts d id
    rw [Registry.isJoined_iff.2 ⟨address, link, hx⟩] at hge
    rw [decide_eq_true rfl] at hb
    exact .inr ⟨id, address, link, rfl, hb.1, hb.2, fun hk => Nat.le_antisymm hb.2 (hge hk)⟩

/-- What waits in the queue is about sessions that stand. -/
lemma not_isStale {c : Command} (hc : c ∈ e.queue) : e.registry.isStale c = false := by
  cases c with
  | attempted d id outcome =>
    have hconn := Registry.isConnecting_iff.2 (t.connecting_of_attempted hc)
    simp [Registry.isStale, hconn]
  | lost d id =>
    obtain ⟨address, link, hget⟩ := t.joined_of_lost hc
    simp [Registry.isStale, hget, Entry.id]
  | _ => rfl

/-- A domain has one attempt at most. -/
lemma id_eq_of_attempts {d : String} {id id' : SessionId} (h : 0 < e.attempts d id)
    (h' : 0 < e.attempts d id') : id = id' := by
  obtain ⟨address, hget⟩ := t.connecting_of_pos h
  obtain ⟨address', hget'⟩ := t.connecting_of_pos h'
  rw [hget] at hget'
  exact (Entry.connecting.inj (Option.some.inj hget')).1

end TalliedFor

/-- While the registry runs, sessions and tasks belong together one to one, but for the sessions
whose tasks have ended unheard. -/
theorem paired_of_past {name : String} {permits : Nat} {refusal : Option SessionError}
    {e₀ e : Exchange} {l : List (Exchange × ExchangeAction)}
    (h₀ : start name permits refusal = .ok e₀) (h : Past e₀ l e) (hr : e.running = true) :
    e.Paired l := by
  have t := talliedFor_of_past (talliedFor_of_start h₀ _) h hr
  have hmem : ∀ {x : Exchange} {d : String} {entry : Entry},
      (d, entry) ∈ x.registry.listing ↔ x.registry.table.get? d = some entry :=
    Table.mem_entries_iff
  -- who has not ended unheard is tallied in full
  have hone : ∀ {n : Nat} {id : SessionId}, (¬Unheard l id → n = 1) → n = 1 ∨ Unheard l id :=
    fun {n id} h => (Classical.em (Unheard l id)).elim .inr fun hnot => .inl (h hnot)
  refine ⟨Table.nodup_keys _, fun d x hx hhome => ?_, not_unheard_of_isHeld h hr,
    fun d id hpos => ?_, fun d id hpos => ?_, fun c hc => t.not_isStale hc,
    fun d id id' => t.id_eq_of_attempts, fun a e' hs hr' d x' hx' => ?_,
    fun e' he' hr' d x' hx' hid => ?_⟩
  · obtain ⟨id, address, hx, hl, ha, hkept⟩ | ⟨id, address, link, hx, ha, hl, hkept⟩ :=
      t.task_cases (hmem.1 hx) hhome
    · exact .inl ⟨id, address, hx, hl, ha, hone hkept⟩
    · exact .inr ⟨id, address, link, hx, ha, hl, hone hkept⟩
  · obtain ⟨address, hget⟩ := t.connecting_of_pos hpos
    exact ⟨address, hmem.2 hget⟩
  · obtain ⟨address, link, hget⟩ := t.joined_of_pos hpos
    exact ⟨address, link, hmem.2 hget⟩
  · rw [hmem] at hx'
    obtain ⟨x, hx, hb⟩ | ⟨hnone, hnew⟩ := entry_of_transition (transition_of_step hs) hr' hx'
    · exact .inl ⟨x, hmem.2 hx, hb⟩
    · refine .inr ⟨fun x hx => ?_, hnew⟩
      rw [hmem, hnone] at hx
      exact absurd hx (by simp)
  · rw [hmem] at hx'
    obtain ⟨x, hx, hb⟩ := entry_of_reaches he' hr' hx' hid
    exact ⟨x, hmem.2 hx, hb⟩

/-- A domain is heard, and the attempt to reach it has been successful. The registry does not know
yet, and the attempt still counts. -/
theorem paired_of_first_attempt :
    let attempt : List ExchangeAction := [.discover ⟨"10.0.0.5", 9000, "alpha", "r1"⟩, .serve,
      .dial 1, .connect 1 (some 1), .provide 1 true, .conclude 1]
    let e := alone.run attempt
    start "home" 4 none = .ok alone ∧ Past alone (alone.trail attempt) e ∧ e.running = true ∧
      e.isHeld = true ∧ e.attempts "alpha" 1 = 1 ∧ e.dials.size = 0 ∧
      e.Paired (alone.trail attempt) :=
  ⟨start_alone, past_trail .., by rfl, by rfl, by decide, by rfl,
    paired_of_past start_alone (past_trail ..) (by rfl)⟩

/-- Without regard to who keeps the queue open, a session may be without its task: the registry runs
and has a command to handle, and a domain is being connected by no attempt. -/
theorem unpaired_of_belated :
    alone.Reaches belated ∧ belated.running = true ∧ (belated.step .serve).isSome = true ∧
      ∃ address, ("alpha", .connecting 1 address) ∈ belated.registry.listing ∧
        belated.attempts "alpha" 1 = 0 :=
  ⟨reaches_run .., by decide +kernel, by decide +kernel, _, .head _, by decide +kernel⟩

end Exchange
end Switchboard
