import Switchboard.Proofs.Exchange.Transitions
import Switchboard.Proofs.Store.Count

/-!
# Sessions and the tasks behind them

A session that is being made has an attempt, and a usable one has a watch: a task, or the report of
a task that the registry has not handled yet. `Exchange.attempts` and `Exchange.lookouts` count
them, and `Exchange.TalliedFor` says that there are as many as the table asks for:

* never more, as long as the registry runs;
* never fewer either, for the sessions whose tasks have all been heard. These are all sessions as
  long as the queue is kept open, `Exchange.Tallied`. A task that finds the queue given up ends
  without a report.

`tallied_of_reaches` and `talliedFor_of_past` keep the tally along every run.
-/

namespace Switchboard
namespace Command

/-- Whether the command reports the outcome of an attempt. -/
def concludes (domain : String) (id : SessionId) : Command → Bool
  | .attempted d i _ => d = domain && i = id
  | _ => false

/-- Whether the command reports the loss of a session's connection. -/
def reportsLoss (domain : String) (id : SessionId) : Command → Bool
  | .lost d i => d = domain && i = id
  | _ => false

lemma concludes_of_isReport {c : Command} (h : c.isReport = false) (domain : String)
    (id : SessionId) : c.concludes domain id = false := by
  cases c with
  | attempted => exact absurd h (by simp [isReport])
  | _ => rfl

lemma reportsLoss_of_isReport {c : Command} (h : c.isReport = false) (domain : String)
    (id : SessionId) : c.reportsLoss domain id = false := by
  cases c with
  | lost => exact absurd h (by simp [isReport])
  | _ => rfl

end Command

namespace Registry

/-- Whether a domain has a session of the given name that is being made. -/
def isConnecting (r : Registry) (domain : String) (id : SessionId) : Bool :=
  match r.table.get? domain with
  | some (.connecting i _) => i = id
  | _ => false

/-- Whether a domain has a session of the given name that is usable and not the home session. -/
def isJoined (r : Registry) (domain : String) (id : SessionId) : Bool :=
  match r.table.get? domain with
  | some (.connected i _ _) => i = id
  | _ => false

lemma isConnecting_iff {r : Registry} {domain : String} {id : SessionId} :
    r.isConnecting domain id = true ↔
      ∃ address, r.table.get? domain = some (.connecting id address) := by
  unfold isConnecting
  split
  · next i address h => simp [h]
  · next h =>
    simp only [Bool.false_eq_true, false_iff, not_exists]
    exact fun address he => h id address he

lemma isJoined_iff {r : Registry} {domain : String} {id : SessionId} :
    r.isJoined domain id = true ↔
      ∃ address link, r.table.get? domain = some (.connected id address link) := by
  unfold isJoined
  split
  · next i address link h => simp [h]
  · next h =>
    simp only [Bool.false_eq_true, false_iff, not_exists]
    exact fun address link he => h id address link he

end Registry

namespace Exchange

/-- How many attempts there are for a session: tasks, and reports in the queue. -/
def attempts (e : Exchange) (domain : String) (id : SessionId) : Nat :=
  e.dials.count (fun i d => i = id && d.domain = domain)
    + e.queue.countP (·.concludes domain id)

/-- How many watches there are over a session: tasks, and reports in the queue. -/
def lookouts (e : Exchange) (domain : String) (id : SessionId) : Nat :=
  e.watches.count (fun i w => i = id && w.domain = domain)
    + e.queue.countP (·.reportsLoss domain id)

/-- What occurs at most as often as a condition holds, and occurs, makes the condition true. -/
lemma eq_true_of_pos_of_le {b : Bool} {n : Nat} (hn : 0 < n) (h : n ≤ b.toNat) : b = true := by
  cases b with
  | true => rfl
  | false => exact absurd h (by rw [Bool.toNat_false]; omega)

/-- There are at most as many tasks as sessions ask for, and as many for the sessions of `kept`. -/
structure TalliedFor (e : Exchange) (kept : SessionId → Prop) : Prop where
  id_lt : ∀ d x, e.registry.table.get? d = some x → x.id < e.nextSession
  id_inj : ∀ d d' x x', e.registry.table.get? d = some x → e.registry.table.get? d' = some x' →
    x.id = x'.id → d = d'
  attempts_le : ∀ d id, e.attempts d id ≤ (e.registry.isConnecting d id).toNat
  lookouts_le : ∀ d id, e.lookouts d id ≤ (e.registry.isJoined d id).toNat
  le_attempts : ∀ d id, kept id → (e.registry.isConnecting d id).toNat ≤ e.attempts d id
  le_lookouts : ∀ d id, kept id → (e.registry.isJoined d id).toNat ≤ e.lookouts d id

/-- There are at most as many tasks as sessions ask for, and as many while the queue is kept
open. -/
abbrev Tallied (e : Exchange) : Prop := e.TalliedFor fun _ => e.isHeld = true

namespace TalliedFor

variable {e e' : Exchange} {kept kept' : SessionId → Prop} (t : e.TalliedFor kept)
include t

/-- An attempt belongs to a session that is being connected. -/
lemma connecting_of_pos {domain : String} {id : SessionId} (h : 0 < e.attempts domain id) :
    ∃ address, e.registry.table.get? domain = some (.connecting id address) :=
  Registry.isConnecting_iff.1 (eq_true_of_pos_of_le h (t.attempts_le domain id))

/-- A watch belongs to a session that is joined. -/
lemma joined_of_pos {domain : String} {id : SessionId} (h : 0 < e.lookouts domain id) :
    ∃ address link, e.registry.table.get? domain = some (.connected id address link) :=
  Registry.isJoined_iff.1 (eq_true_of_pos_of_le h (t.lookouts_le domain id))

/-- An attempt that goes by a name belongs to a session of that name. -/
theorem connecting_of_dial {id : SessionId} {d : Dial} (h : e.dials.get? id = some d) :
    ∃ address, e.registry.table.get? d.domain = some (.connecting id address) :=
  t.connecting_of_pos (Nat.add_pos_left (Table.count_pos_iff.2 ⟨id, d, h, by simp⟩) _)

/-- A watch that goes by a name belongs to a session of that name. -/
lemma joined_of_watch {id : SessionId} {w : LossWatch} (h : e.watches.get? id = some w) :
    ∃ address link, e.registry.table.get? w.domain = some (.connected id address link) :=
  t.joined_of_pos (Nat.add_pos_left (Table.count_pos_iff.2 ⟨id, w, h, by simp⟩) _)

/-- The report of an attempt is about a session that is being made. -/
theorem connecting_of_attempted {domain : String} {id : SessionId} {outcome : Option Link}
    (h : .attempted domain id outcome ∈ e.queue) :
    ∃ address, e.registry.table.get? domain = some (.connecting id address) :=
  t.connecting_of_pos (Nat.add_pos_right _
    (List.countP_pos_iff.2 ⟨_, h, by simp [Command.concludes]⟩))

/-- The report of a loss is about a usable session that is not the home session. -/
theorem joined_of_lost {domain : String} {id : SessionId} (h : .lost domain id ∈ e.queue) :
    ∃ address link, e.registry.table.get? domain = some (.connected id address link) :=
  t.joined_of_pos (Nat.add_pos_right _
    (List.countP_pos_iff.2 ⟨_, h, by simp [Command.reportsLoss]⟩))

/-- The name of the next attempt is not in use. -/
theorem dials_fresh : e.dials.get? e.nextSession = none := by
  cases h : e.dials.get? e.nextSession with
  | none => rfl
  | some d =>
    obtain ⟨address, hget⟩ := t.connecting_of_dial h
    exact absurd (t.id_lt _ _ hget) (by simp [Entry.id])

/-- Nobody watches over a session that is being made. -/
lemma watches_of_connecting {domain : String} {id : SessionId} {address : Endpoint}
    (h : e.registry.table.get? domain = some (.connecting id address)) :
    e.watches.get? id = none := by
  cases hw : e.watches.get? id with
  | none => rfl
  | some w =>
    obtain ⟨a, link, hget⟩ := t.joined_of_watch hw
    have hd := t.id_inj _ _ _ _ h hget rfl
    rw [hd, hget] at h
    exact absurd h (by simp)

/-- Once the outcome of an attempt is in the queue, its task is over. -/
theorem dials_of_attempted {domain : String} {id : SessionId} {outcome : Option Link}
    (h : .attempted domain id outcome ∈ e.queue) : e.dials.get? id = none := by
  cases hd : e.dials.get? id with
  | none => rfl
  | some d =>
    obtain ⟨a, hget⟩ := t.connecting_of_dial hd
    obtain ⟨a', hget'⟩ := t.connecting_of_attempted h
    have hdom := t.id_inj _ _ _ _ hget hget' rfl
    have hpos : 0 < e.queue.countP (·.concludes domain id) :=
      List.countP_pos_iff.2 ⟨_, h, by simp [Command.concludes]⟩
    have hpos' : 0 < e.dials.count (fun i x => i = id && x.domain = domain) :=
      Table.count_pos_iff.2 ⟨id, d, hd, by simp [hdom]⟩
    have hle := t.attempts_le domain id
    have hone := Bool.toNat_le (e.registry.isConnecting domain id)
    unfold attempts at hle
    omega

/-! ## One transition -/

/-- The tally depends on the table and on the numbers of tasks. -/
theorem congr (ht : e'.registry.table = e.registry.table) (hn : e.nextSession ≤ e'.nextSession)
    (ha : ∀ d id, e'.attempts d id = e.attempts d id)
    (hl : ∀ d id, e'.lookouts d id = e.lookouts d id)
    (hk : ∀ id, kept' id → kept id) : e'.TalliedFor kept' where
  id_lt d x hx := by
    rw [ht] at hx
    exact Nat.lt_of_lt_of_le (t.id_lt d x hx) hn
  id_inj := by
    rw [ht]
    exact t.id_inj
  attempts_le d id := by
    rw [ha, Registry.isConnecting, ht]
    exact t.attempts_le d id
  lookouts_le d id := by
    rw [hl, Registry.isJoined, ht]
    exact t.lookouts_le d id
  le_attempts d id h := by
    rw [ha, Registry.isConnecting, ht]
    exact t.le_attempts d id (hk id h)
  le_lookouts d id h := by
    rw [hl, Registry.isJoined, ht]
    exact t.le_lookouts d id (hk id h)

/-- Steps beside the sessions keep the tally. -/
lemma aside (h : e.Untouched e') (hk : ∀ id, kept' id → kept id) : e'.TalliedFor kept' := by
  obtain ⟨extra, hq, hextra⟩ := h.queue
  refine t.congr h.table (Nat.le_of_eq h.nextSession.symm) (fun d id => ?_) (fun d id => ?_) hk
  · have hzero : extra.countP (·.concludes d id) = 0 :=
      List.countP_eq_zero.2 fun c hc => by
        simp [Command.concludes_of_isReport (hextra c hc)]
    rw [attempts, attempts, h.dials, hq, List.countP_append, hzero, Nat.add_zero]
  · have hzero : extra.countP (·.reportsLoss d id) = 0 :=
      List.countP_eq_zero.2 fun c hc => by
        simp [Command.reportsLoss_of_isReport (hextra c hc)]
    rw [lookouts, lookouts, h.watches, hq, List.countP_append, hzero, Nat.add_zero]

/-- Only one domain's session changes, and its tasks with it. -/
theorem changed (domain : String) (new : Option Entry)
    (ht : ∀ d, e'.registry.table.get? d = if d = domain then new else e.registry.table.get? d)
    (hn : e.nextSession ≤ e'.nextSession)
    (hid : ∀ x, new = some x → x.id < e'.nextSession ∧
      ∀ d y, d ≠ domain → e.registry.table.get? d = some y → y.id ≠ x.id)
    (ha : ∀ d id, d ≠ domain → e'.attempts d id = e.attempts d id)
    (hl : ∀ d id, d ≠ domain → e'.lookouts d id = e.lookouts d id)
    (ha' : ∀ id, e'.attempts domain id = (e'.registry.isConnecting domain id).toNat)
    (hl' : ∀ id, e'.lookouts domain id = (e'.registry.isJoined domain id).toNat)
    (hk : ∀ id, kept' id → kept id) : e'.TalliedFor kept' := by
  have hconn : ∀ d id, d ≠ domain →
      e'.registry.isConnecting d id = e.registry.isConnecting d id := fun d id hd => by
    rw [Registry.isConnecting, Registry.isConnecting, ht, if_neg hd]
  have hjoin : ∀ d id, d ≠ domain →
      e'.registry.isJoined d id = e.registry.isJoined d id := fun d id hd => by
    rw [Registry.isJoined, Registry.isJoined, ht, if_neg hd]
  refine ⟨?_, ?_, ?_, ?_, ?_, ?_⟩
  · intro d x hx
    rw [ht] at hx
    split at hx
    · exact (hid x hx).1
    · exact Nat.lt_of_lt_of_le (t.id_lt d x hx) hn
  · intro d d' x x' hx hx' heq
    rw [ht] at hx hx'
    -- the changed session has a name that no other domain's session has
    split at hx <;> split at hx'
    · next h h' => rw [h, h']
    · next h' => exact absurd heq.symm ((hid x hx).2 d' x' h' hx')
    · next h _ => exact absurd heq ((hid x' hx').2 d x h hx)
    · exact t.id_inj d d' x x' hx hx' heq
  · intro d id
    by_cases hd : d = domain
    · rw [hd]
      exact Nat.le_of_eq (ha' id)
    · rw [ha d id hd, hconn d id hd]
      exact t.attempts_le d id
  · intro d id
    by_cases hd : d = domain
    · rw [hd]
      exact Nat.le_of_eq (hl' id)
    · rw [hl d id hd, hjoin d id hd]
      exact t.lookouts_le d id
  · intro d id h
    by_cases hd : d = domain
    · rw [hd]
      exact Nat.le_of_eq (ha' id).symm
    · rw [ha d id hd, hconn d id hd]
      exact t.le_attempts d id (hk id h)
  · intro d id h
    by_cases hd : d = domain
    · rw [hd]
      exact Nat.le_of_eq (hl' id).symm
    · rw [hl d id hd, hjoin d id hd]
      exact t.le_lookouts d id (hk id h)

/-- A domain without a session has neither attempts nor watches. -/
lemma none_of_get? {domain : String} (h : e.registry.table.get? domain = none)
    (id : SessionId) : e.attempts domain id = 0 ∧ e.lookouts domain id = 0 := by
  have ha := t.attempts_le domain id
  have hl := t.lookouts_le domain id
  simp only [Registry.isConnecting, Registry.isJoined, h, Bool.toNat_false] at ha hl
  omega

/-- A session that is being made has no watch, and no attempt of another name. -/
theorem bounds_of_connecting {domain : String} {id : SessionId} {address : Endpoint}
    (h : e.registry.table.get? domain = some (.connecting id address)) (i : SessionId) :
    e.attempts domain i ≤ (id = i : Bool).toNat ∧ e.lookouts domain i = 0 := by
  have ha := t.attempts_le domain i
  have hl := t.lookouts_le domain i
  simp only [Registry.isConnecting, Registry.isJoined, h, Bool.toNat_false] at ha hl
  omega

/-- A usable session has no attempt, and no watch of another name. -/
theorem bounds_of_joined {domain : String} {id : SessionId} {address : Endpoint} {link : Link}
    (h : e.registry.table.get? domain = some (.connected id address link)) (i : SessionId) :
    e.attempts domain i = 0 ∧ e.lookouts domain i ≤ (id = i : Bool).toNat := by
  have ha := t.attempts_le domain i
  have hl := t.lookouts_le domain i
  simp only [Registry.isConnecting, Registry.isJoined, h, Bool.toNat_false] at ha hl
  omega

/-! ## The answer to a command -/

omit t in
/-- The attempts of a session, with the first command of the queue apart. -/
lemma attempts_of_queue {c : Command} {rest : List Command} (hq : e.queue = c :: rest)
    (d : String) (id : SessionId) :
    e.attempts d id = e.dials.count (fun i x => i = id && x.domain = d)
      + rest.countP (·.concludes d id) + (c.concludes d id).toNat := by
  rw [attempts, hq, List.countP_cons]
  cases c.concludes d id <;> rfl

omit t in
/-- The watches of a session, with the first command of the queue apart. -/
lemma lookouts_of_queue {c : Command} {rest : List Command} (hq : e.queue = c :: rest)
    (d : String) (id : SessionId) :
    e.lookouts d id = e.watches.count (fun i x => i = id && x.domain = d)
      + rest.countP (·.reportsLoss d id) + (c.reportsLoss d id).toNat := by
  rw [lookouts, hq, List.countP_cons]
  cases c.reportsLoss d id <;> rfl

section Served

variable {c : Command} {rest : List Command} (hq : e.queue = c :: rest) (hq' : e'.queue = rest)
  (hn : e'.nextSession = e.nextSession + 1) (hk : ∀ id, kept' id → kept id)
include hq hq' hn hk

/-- A new session comes with its attempt. -/
theorem begun {info : DomainInfo} {address : Endpoint} {dial : Dial} (hc : c = .discovered info)
    (hnone : e.registry.table.get? info.key = none) (hdial : dial.domain = info.key)
    (ht : e'.registry.table = e.registry.table.insert info.key (.connecting e.nextSession address))
    (hd : e'.dials = e.dials.insert e.nextSession dial) (hw : e'.watches = e.watches) :
    e'.TalliedFor kept' := by
  subst hc
  -- the attempt is one more for the new session, and none for any other
  have ha : ∀ d id, e'.attempts d id
      = e.attempts d id + (e.nextSession = id && info.key = d : Bool).toNat := fun d id => by
    have hcount := e.dials.count_insert (fun i x => i = id && x.domain = d) e.nextSession dial
    rw [t.dials_fresh, Table.share_none, hdial] at hcount
    rw [attempts, attempts_of_queue hq, hd, hq']
    simp only [Command.concludes, Bool.toNat_false]
    omega
  have hl : ∀ d id, e'.lookouts d id = e.lookouts d id := fun d id => by
    rw [lookouts, lookouts_of_queue hq, hw, hq']
    rfl
  refine t.changed info.key (some (.connecting e.nextSession address))
    (fun d => by rw [ht, Table.get?_insert]) (hn ▸ Nat.le_succ _) ?_ (fun d id hne => ?_)
    (fun d id _ => hl d id) (fun id => ?_) (fun id => ?_) hk
  · rintro x ⟨⟩
    rw [hn]
    exact ⟨Nat.lt_succ_self _, fun d y _ hy => Nat.ne_of_lt (t.id_lt d y hy)⟩
  · have hne' : info.key ≠ d := fun he => hne he.symm
    simp [ha, hne']
  · simp [ha, (t.none_of_get? hnone id).1, Registry.isConnecting, ht]
  · simp [hl, (t.none_of_get? hnone id).2, Registry.isJoined, ht]

/-- A successful attempt gives way to a watch. -/
theorem joined {domain : String} {id : SessionId} {address : Endpoint} {link : Link}
    {watch : LossWatch} (hc : c = .attempted domain id (some link))
    (hget : e.registry.table.get? domain = some (.connecting id address))
    (hwatch : watch.domain = domain)
    (ht : e'.registry.table = e.registry.table.insert domain (.connected id address link))
    (hd : e'.dials = e.dials) (hw : e'.watches = e.watches.insert id watch) :
    e'.TalliedFor kept' := by
  subst hc
  -- the report has been the attempt, and the watch is one more
  have ha : ∀ d i, e.attempts d i
      = e'.attempts d i + (domain = d && id = i : Bool).toNat := fun d i => by
    rw [attempts_of_queue hq, attempts, hd, hq']
    rfl
  have hl : ∀ d i, e'.lookouts d i
      = e.lookouts d i + (id = i && domain = d : Bool).toNat := fun d i => by
    have hcount := e.watches.count_insert (fun j x => j = i && x.domain = d) id watch
    rw [t.watches_of_connecting hget, Table.share_none, hwatch] at hcount
    rw [lookouts, lookouts_of_queue hq, hw, hq']
    simp only [Command.reportsLoss, Bool.toNat_false]
    omega
  refine t.changed domain (some (.connected id address link))
    (fun d => by rw [ht, Table.get?_insert]) (hn ▸ Nat.le_succ _) ?_ (fun d i hne => ?_)
    (fun d i hne => ?_) (fun i => ?_) (fun i => ?_) hk
  · rintro x ⟨⟩
    rw [hn]
    have hlt : id < e.nextSession := t.id_lt _ _ hget
    exact ⟨Nat.lt_succ_of_lt hlt, fun d y hne hy heq => hne (t.id_inj d domain y _ hy hget heq)⟩
  · have hne' : domain ≠ d := fun he => hne he.symm
    simp [ha, hne']
  · have hne' : domain ≠ d := fun he => hne he.symm
    simp [hl, hne']
  · have hle := (t.bounds_of_connecting hget i).1
    rw [ha] at hle
    simp only [decide_true, Bool.true_and] at hle
    rw [Registry.isConnecting, ht, Table.get?_insert, if_pos rfl]
    simp only [Bool.toNat_false]
    omega
  · simp [hl, (t.bounds_of_connecting hget i).2, Registry.isJoined, ht]

/-- A session that is removed leaves no task behind. -/
theorem removed {domain : String}
    (ha : ∀ i, e.attempts domain i ≤ (c.concludes domain i).toNat)
    (hl : ∀ i, e.lookouts domain i ≤ (c.reportsLoss domain i).toNat)
    (hne : ∀ d i, d ≠ domain → c.concludes d i = false ∧ c.reportsLoss d i = false)
    (ht : e'.registry.table = e.registry.table.erase domain)
    (hd : e'.dials = e.dials) (hw : e'.watches = e.watches) : e'.TalliedFor kept' := by
  have hnone : e'.registry.table.get? domain = none := by
    rw [ht, Table.get?_erase, if_pos rfl]
  -- the report that removes the session has been its last task
  have ha' : ∀ d i, e.attempts d i = e'.attempts d i + (c.concludes d i).toNat := fun d i => by
    rw [attempts_of_queue hq, attempts, hd, hq']
  have hl' : ∀ d i, e.lookouts d i = e'.lookouts d i + (c.reportsLoss d i).toNat := fun d i => by
    rw [lookouts_of_queue hq, lookouts, hw, hq']
  refine t.changed domain none (fun d => by rw [ht, Table.get?_erase]) (hn ▸ Nat.le_succ _)
    (fun x hx => absurd hx (by simp)) (fun d i hd => ?_) (fun d i hd => ?_) (fun i => ?_)
    (fun i => ?_) hk
  · rw [ha', (hne d i hd).1]
    rfl
  · rw [hl', (hne d i hd).2]
    rfl
  · have hle := ha i
    rw [ha'] at hle
    rw [Registry.isConnecting, hnone, Bool.toNat_false]
    omega
  · have hle := hl i
    rw [hl'] at hle
    rw [Registry.isJoined, hnone, Bool.toNat_false]
    omega

end Served

/-- The tally is kept when the registry answers a command. -/
theorem served {c : Command} {rest : List Command} (hq : e.queue = c :: rest)
    (hs : e.Served rest c e') (hk : ∀ id, kept' id → kept id) : e'.TalliedFor kept' := by
  have hmem : c ∈ e.queue := hq ▸ List.mem_cons_self
  have ha := attempts_of_queue hq
  have hl := lookouts_of_queue hq
  cases hs with
  | known | unusable | refused | forwarded | listed =>
    exact t.congr rfl (Nat.le_succ _) (fun d i => (ha d i).symm) (fun d i => (hl d i).symm) hk
  | begun hnone _ => exact t.begun hq rfl rfl hk rfl hnone rfl rfl rfl rfl
  | joined hget => exact t.joined hq rfl rfl hk rfl hget rfl rfl rfl rfl
  | @failed domain id address hget =>
    -- the task has ended with its report, so that nothing is broken off
    have hdials : e.dials.erase id = e.dials :=
      Table.erase_eq_self (t.dials_of_attempted hmem)
    refine t.removed hq rfl rfl hk (fun i => ?_) (fun i => ?_) (fun d i hne => ?_) rfl hdials rfl
    · simpa [Command.concludes] using (t.bounds_of_connecting hget i).1
    · simp [(t.bounds_of_connecting hget i).2]
    · have hne' : domain ≠ d := fun he => hne he.symm
      simp [Command.concludes, Command.reportsLoss, hne']
  | @ended domain id entry link hget hid _ =>
    obtain ⟨address, l, hjoined⟩ := t.joined_of_lost hmem
    refine t.removed hq rfl rfl hk (fun i => ?_) (fun i => ?_) (fun d i hne => ?_) rfl rfl rfl
    · simp [(t.bounds_of_joined hjoined i).1]
    · simpa [Command.reportsLoss] using (t.bounds_of_joined hjoined i).2
    · have hne' : domain ≠ d := fun he => hne he.symm
      simp [Command.concludes, Command.reportsLoss, hne']
  -- reports are about sessions that stand, so none of them is out of date
  | discarded hstale =>
    obtain ⟨address, hget⟩ := t.connecting_of_attempted hmem
    exact absurd hget (hstale address)
  | broken hget =>
    obtain ⟨address, link, hjoined⟩ := t.joined_of_lost hmem
    exact absurd (hget.symm.trans hjoined) (by simp)
  | ignored hstale =>
    obtain ⟨address, link, hjoined⟩ := t.joined_of_lost hmem
    exact absurd rfl (hstale _ hjoined)

/-! ## Any transition, any run -/

/-- An attempt that goes on stays the attempt of its domain. -/
theorem advanced {id : SessionId} {stage : DialStage}
    (hd : e'.dials = e.dials.modify id fun d => { d with stage })
    (ht : e'.registry.table = e.registry.table)
    (hn : e'.nextSession = e.nextSession) (hw : e'.watches = e.watches)
    (hq : e'.queue = e.queue) (hk : ∀ id, kept' id → kept id) : e'.TalliedFor kept' := by
  refine t.congr ht (Nat.le_of_eq hn.symm) (fun d i => ?_) (fun d i => ?_) hk
  · have hcount := e.dials.count_modify (fun j x => j = i && x.domain = d) id
      fun x => { x with stage }
    have hshare : Table.share (fun j (x : Dial) => decide (j = i) && decide (x.domain = d)) id
        ((e.dials.get? id).map fun x => { x with stage })
        = Table.share (fun j x => decide (j = i) && decide (x.domain = d)) id
          (e.dials.get? id) := by
      cases e.dials.get? id <;> rfl
    rw [attempts, attempts, hd, hq]
    omega
  · rw [lookouts, lookouts, hw, hq]

/-- An attempt that is over has told its outcome. -/
theorem concluded {id : SessionId} {d : Dial} {outcome : Option Link}
    (hdial : e.dials.get? id = some d) (ht : e'.registry.table = e.registry.table)
    (hn : e'.nextSession = e.nextSession) (hd : e'.dials = e.dials.erase id)
    (hw : e'.watches = e.watches) (hq : e'.queue = e.queue ++ [.attempted d.domain id outcome])
    (hk : ∀ id, kept' id → kept id) : e'.TalliedFor kept' := by
  refine t.congr ht (Nat.le_of_eq hn.symm) (fun domain i => ?_) (fun domain i => ?_) hk
  · have hcount := e.dials.count_erase (fun j x => j = i && x.domain = domain) id
    rw [hdial, Table.share_some] at hcount
    rw [attempts, attempts, hd, hq, List.countP_append, List.countP_singleton]
    -- the report counts where the task has counted
    have hone :
        (if Command.concludes domain i (.attempted d.domain id outcome) = true then 1 else 0)
        = (decide (id = i) && decide (d.domain = domain)).toNat := by
      rw [Bool.and_comm]
      cases hb : decide (d.domain = domain) && decide (id = i) <;>
        simp [Command.concludes, hb]
    omega
  · rw [lookouts, lookouts, hw, hq, List.countP_append]
    rfl

/-- A watch that is over has told what it noticed. -/
theorem noticed {id : SessionId} {w : LossWatch} (hwatch : e.watches.get? id = some w)
    (ht : e'.registry.table = e.registry.table) (hn : e'.nextSession = e.nextSession)
    (hd : e'.dials = e.dials) (hw : e'.watches = e.watches.erase id)
    (hq : e'.queue = e.queue ++ [.lost w.domain id]) (hk : ∀ id, kept' id → kept id) :
    e'.TalliedFor kept' := by
  refine t.congr ht (Nat.le_of_eq hn.symm) (fun domain i => ?_) (fun domain i => ?_) hk
  · rw [attempts, attempts, hd, hq, List.countP_append]
    rfl
  · have hcount := e.watches.count_erase (fun j x => j = i && x.domain = domain) id
    rw [hwatch, Table.share_some] at hcount
    rw [lookouts, lookouts, hw, hq, List.countP_append, List.countP_singleton]
    have hone : (if Command.reportsLoss domain i (.lost w.domain id) = true then 1 else 0)
        = (decide (id = i) && decide (w.domain = domain)).toNat := by
      rw [Bool.and_comm]
      cases hb : decide (w.domain = domain) && decide (id = i) <;>
        simp [Command.reportsLoss, hb]
    omega

/-- A task that ends unheard is missing from its own session only. -/
theorem unheard (id : SessionId) (ht : e'.registry.table = e.registry.table)
    (hn : e'.nextSession = e.nextSession) (ha : ∀ d i, e'.attempts d i ≤ e.attempts d i)
    (hl : ∀ d i, e'.lookouts d i ≤ e.lookouts d i)
    (ha' : ∀ d i, i ≠ id → e'.attempts d i = e.attempts d i)
    (hl' : ∀ d i, i ≠ id → e'.lookouts d i = e.lookouts d i)
    (hk : ∀ i, kept' i → kept i ∧ i ≠ id) : e'.TalliedFor kept' where
  id_lt := by
    rw [ht, hn]
    exact t.id_lt
  id_inj := by
    rw [ht]
    exact t.id_inj
  attempts_le d i := by
    rw [Registry.isConnecting, ht]
    exact Nat.le_trans (ha d i) (t.attempts_le d i)
  lookouts_le d i := by
    rw [Registry.isJoined, ht]
    exact Nat.le_trans (hl d i) (t.lookouts_le d i)
  le_attempts d i h := by
    rw [ha' d i (hk i h).2, Registry.isConnecting, ht]
    exact t.le_attempts d i (hk i h).1
  le_lookouts d i h := by
    rw [hl' d i (hk i h).2, Registry.isJoined, ht]
    exact t.le_lookouts d i (hk i h).1

/-- The tally is kept by whatever happens while the registry runs, but for a session whose task ends
unheard. -/
theorem transition {a : ExchangeAction} (h : e.Transition a e') (hr : e'.running = true)
    (hk : ∀ id, kept' id → kept id ∧ ¬e.EndsUnheard a id) : e'.TalliedFor kept' := by
  have hkept : ∀ id, kept' id → kept id := fun id h => (hk id h).1
  cases h with
  | aside h => exact t.aside h hkept
  | served hq h => exact t.served hq h hkept
  | stopped h => exact absurd hr (by simp [h])
  | advanced | provided => exact t.advanced rfl rfl rfl rfl rfl hkept
  | concluded hd => exact t.concluded hd rfl rfl rfl rfl rfl hkept
  | noticed hw => exact t.noticed hw rfl rfl rfl rfl rfl hkept
  -- a task that ends unheard is missed by its own session only
  | @unheard id _ _ _ _ hnot =>
    refine t.unheard id rfl rfl
      (fun _ _ => Nat.add_le_add_right (Table.count_erase_le ..) _) (fun _ _ => Nat.le_refl _)
      (fun d i hne => ?_) (fun _ _ _ => rfl) fun i hi => ⟨hkept i hi, ?_⟩
    · exact congrArg (· + _) (e.dials.count_erase_of_not fun x => by simp [hne.symm])
    · rintro rfl
      exact (hk i hi).2 ⟨hnot, .inl rfl⟩
  | @unnoticed id hnot =>
    refine t.unheard id rfl rfl (fun _ _ => Nat.le_refl _)
      (fun _ _ => Nat.add_le_add_right (Table.count_erase_le ..) _) (fun _ _ _ => rfl)
      (fun d i hne => ?_) fun i hi => ⟨hkept i hi, ?_⟩
    · exact congrArg (· + _) (e.watches.count_erase_of_not fun x => by simp [hne.symm])
    · rintro rfl
      exact (hk i hi).2 ⟨hnot, .inr rfl⟩
  | withdrew _ =>
    exact t.congr rfl (Nat.le_refl _) (fun _ _ => rfl) (fun _ _ => rfl) hkept

end TalliedFor

/-- At the beginning there is the home session, which needs no task. -/
theorem talliedFor_of_start {name : String} {permits : Nat} {refusal : Option SessionError}
    {e : Exchange} (h : start name permits refusal = .ok e) (kept : SessionId → Prop) :
    e.TalliedFor kept := by
  rw [eq_of_start h]
  have hget := get?_start name 0 ⟨homeConnection, 1⟩ permits
  refine ⟨fun d x hx => ?_, fun d d' x x' hx hx' _ => ?_, fun d id => ?_, fun d id => ?_,
    fun d id _ => ?_, fun d id _ => ?_⟩
  · rw [hget] at hx
    split at hx
    · rw [← Option.some.inj hx]
      exact Nat.zero_lt_one
    · exact absurd hx (by simp)
  · rw [hget] at hx hx'
    split at hx <;> split at hx' <;> simp_all
  · exact Nat.zero_le _
  · exact Nat.zero_le _
  · rw [Registry.isConnecting, hget]
    split <;> simp_all
  · rw [Registry.isJoined, hget]
    split <;> simp_all

/-- The tally is right at the start. -/
lemma tallied_of_start {name : String} {permits : Nat} {refusal : Option SessionError}
    {e : Exchange} (h : start name permits refusal = .ok e) : e.Tallied :=
  talliedFor_of_start h _

/-- While the queue is kept open, the tally stays complete. -/
theorem Tallied.step {e e' : Exchange} {a : ExchangeAction} (t : e.Tallied)
    (h : e.step a = some e') (hr : e'.running = true) : e'.Tallied := by
  have htrans := transition_of_step h
  refine t.transition htrans hr fun id hh => ?_
  have hheld := htrans.isHeld hr hh
  exact ⟨hheld, fun hends => absurd hheld (by simp [hends.1])⟩

/-- The tally is kept along every run, until the registry stops. -/
theorem tallied_of_reaches {e e' : Exchange} (t : e.Tallied) (h : e.Reaches e')
    (hr : e'.running = true) : e'.Tallied :=
  h.invariant hr t fun _ _ _ _ _ hs hrun tm => tm.step hs hrun

/-- The tally is complete along every run but for the sessions whose tasks have ended unheard. -/
theorem talliedFor_of_past {e₀ e : Exchange} {l : List (Exchange × ExchangeAction)}
    (t : e₀.TalliedFor fun _ => True) (h : Past e₀ l e) (hr : e.running = true) :
    e.TalliedFor fun id => ¬Unheard l id := by
  induction h with
  | started =>
    exact t.congr rfl (Nat.le_refl _) (fun _ _ => rfl) (fun _ _ => rfl) fun _ _ => trivial
  | step _ hs ih =>
    have htrans := transition_of_step hs
    refine (ih (htrans.running hr)).transition htrans hr fun id hnot =>
      ⟨fun hbefore => ?_, fun h => ?_⟩
    · obtain ⟨p, hp, hends⟩ := hbefore
      exact hnot ⟨p, List.mem_cons_of_mem _ hp, hends⟩
    · exact hnot ⟨_, List.mem_cons_self, h⟩

/-- A domain is heard, the sessions are asked for, and the last handle is given up before the
registry comes to the question. Then the attempt is successful, and cannot tell. -/
def belated : Exchange :=
  alone.run [.discover ⟨"10.0.0.5", 9000, "alpha", "r1"⟩, .serve, .dial 1, .connect 1 (some 1),
    .provide 1 true, .ask, .release, .conclude 1]

end Exchange
end Switchboard
