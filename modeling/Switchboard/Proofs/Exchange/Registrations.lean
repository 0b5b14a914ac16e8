import Switchboard.Proofs.Exchange.Sessions
import Mathlib.Data.List.Nodup

/-!
# Where registrations are

A registration that the home connection has issued goes with the attempt that it was made for, then
with the report of the attempt, then with the session, and at the end it is handed over for
withdrawal. `Exchange.places` counts all of these.

* `Exchange.AccountedFor` says that a registration has one place, and that whoever has it serves the
  domain of its pattern.
* `accounted_of_reaches` keeps the account along every run while the queue is kept open, and
  `accountedFor_of_past` beyond that, but for the registrations whose attempts end unheard.
* `Exchange.Balanced` is the whole, and `balanced_of_past` proves it; `unbalanced_of_belated` is why
  an attempt has to be heard for it.
-/

namespace Switchboard

/-- Whether an attempt has a registration. -/
def Dial.carries (r : RegistrationId) (d : Dial) : Bool := d.stage.link?.any (·.registration = r)

/-- Whether the command reports an attempt that has a registration. -/
def Command.carries (r : RegistrationId) : Command → Bool
  | .attempted _ _ outcome => outcome.any (·.registration = r)
  | _ => false

/-- Whether a session has a registration. -/
def Entry.holds (r : RegistrationId) (x : Entry) : Bool := x.link?.any (·.registration = r)

/-- Whether a registration has been issued. -/
def Provider.hasIssued (p : Provider) (r : RegistrationId) : Bool := 0 < r && r < p.next

lemma Command.carries_of_isReport {c : Command} (h : c.isReport = false) (r : RegistrationId) :
    c.carries r = false := by
  cases c with
  | attempted => exact absurd h (by simp [isReport])
  | _ => rfl

namespace Exchange

/-- How many attempts, reports of attempts and sessions have a registration. -/
def owners (e : Exchange) (r : RegistrationId) : Nat :=
  e.dials.count (fun _ d => d.carries r) + e.queue.countP (·.carries r)
    + e.registry.table.count fun _ x => x.holds r

/-- How often a registration has been handed over for withdrawal. -/
def handovers (e : Exchange) (r : RegistrationId) : Nat :=
  e.withdrawals.count r + e.provider.withdrawn.count r

/-- How many places a registration is at. -/
def places (e : Exchange) (r : RegistrationId) : Nat := e.owners r + e.handovers r

/-- Whoever has a registration has it for a domain. -/
inductive Owns (e : Exchange) (r : RegistrationId) (domain : String) : Prop
  | dial {id : SessionId} {d : Dial} {link : Link} (h : e.dials.get? id = some d)
      (hl : d.stage.link? = some link) (hr : link.registration = r) (hd : d.domain = domain)
  | report {id : SessionId} {link : Link} (h : .attempted domain id (some link) ∈ e.queue)
      (hr : link.registration = r)
  | session {x : Entry} {link : Link} (h : e.registry.table.get? domain = some x)
      (hl : x.link? = some link) (hr : link.registration = r)

lemma carries_eq_true {d : Dial} {r : RegistrationId} :
    d.carries r = true ↔ ∃ link, d.stage.link? = some link ∧ link.registration = r := by
  unfold Dial.carries
  cases d.stage.link? <;> simp

lemma holds_eq_true {x : Entry} {r : RegistrationId} :
    x.holds r = true ↔ ∃ link, x.link? = some link ∧ link.registration = r := by
  unfold Entry.holds
  cases x.link? <;> simp

/-- A registration is counted if and only if somebody has it. -/
lemma owners_pos_iff {e : Exchange} {r : RegistrationId} :
    0 < e.owners r ↔ ∃ domain, e.Owns r domain := by
  constructor
  · intro hpos
    -- one of the three places has it
    have hsome : 0 < e.dials.count (fun _ d => d.carries r) ∨ 0 < e.queue.countP (·.carries r) ∨
        0 < e.registry.table.count fun _ x => x.holds r := by
      unfold owners at hpos
      omega
    rcases hsome with hpos | hpos | hpos
    · obtain ⟨id, d, hget, hc⟩ := Table.count_pos_iff.1 hpos
      obtain ⟨link, hl, hr⟩ := carries_eq_true.1 hc
      exact ⟨d.domain, .dial hget hl hr rfl⟩
    · obtain ⟨c, hmem, hc⟩ := List.countP_pos_iff.1 hpos
      cases c with
      | attempted domain id outcome =>
        cases outcome with
        | none => exact absurd hc (by simp [Command.carries])
        | some link => exact ⟨domain, .report hmem (by simpa [Command.carries] using hc)⟩
      | _ => exact absurd hc (by simp [Command.carries])
    · obtain ⟨domain, x, hget, hc⟩ := Table.count_pos_iff.1 hpos
      obtain ⟨link, hl, hr⟩ := holds_eq_true.1 hc
      exact ⟨domain, .session hget hl hr⟩
  · rintro ⟨domain, ⟨h, hl, hr, -⟩ | ⟨h, hr⟩ | ⟨h, hl, hr⟩⟩
    · have hpos : 0 < e.dials.count fun _ d => d.carries r :=
        Table.count_pos_iff.2 ⟨_, _, h, carries_eq_true.2 ⟨_, hl, hr⟩⟩
      unfold owners
      omega
    · have hpos : 0 < e.queue.countP (·.carries r) :=
        List.countP_pos_iff.2 ⟨_, h, by simpa [Command.carries] using hr⟩
      unfold owners
      omega
    · have hpos : 0 < e.registry.table.count fun _ x => x.holds r :=
        Table.count_pos_iff.2 ⟨_, _, h, holds_eq_true.2 ⟨_, hl, hr⟩⟩
      unfold owners
      omega

/-- No registration has two places, and those of `kept` have one. -/
structure AccountedFor (e : Exchange) (kept : RegistrationId → Prop) : Prop where
  next_pos : 0 < e.provider.next
  places_le : ∀ r, e.places r ≤ (e.provider.hasIssued r).toNat
  le_places : ∀ r, kept r → (e.provider.hasIssued r).toNat ≤ e.places r
  provided_iff : ∀ r, (e.provider.provided.get? r).isSome = true ↔
    e.provider.hasIssued r = true ∧ r ∉ e.provider.withdrawn
  pattern : ∀ r domain, e.Owns r domain →
    e.provider.provided.get? r = some (DomainInfo.routePattern domain)

/-- No registration has two places, and each has one while the queue is kept open. -/
abbrev Accounted (e : Exchange) : Prop := e.AccountedFor fun _ => e.isHeld = true

/-- The action ends an attempt that has a registration, and nobody hears of it: the registration is
left without an owner. -/
def Drops (e : Exchange) (a : ExchangeAction) (r : RegistrationId) : Prop :=
  e.isHeld = false ∧ ∃ id d, a = .conclude id ∧ e.dials.get? id = some d ∧ d.carries r = true

/-- A registration has been left without an owner. -/
def Dropped (l : List (Exchange × ExchangeAction)) (r : RegistrationId) : Prop :=
  ∃ p ∈ l, p.1.Drops p.2 r

/-- As long as the queue is kept open, no registration is left without an owner. -/
lemma not_dropped_of_isHeld {e₀ e : Exchange} {l : List (Exchange × ExchangeAction)}
    (h : Past e₀ l e) (hr : e.running = true) (hh : e.isHeld = true) (r : RegistrationId) :
    ¬Dropped l r := by
  rintro ⟨p, hp, hnot, -⟩
  exact absurd (isHeld_of_past h hr hh p hp) (by simp [hnot])

namespace AccountedFor

variable {e e' : Exchange} {kept kept' : RegistrationId → Prop} (a : e.AccountedFor kept)
include a

/-- Nobody has a registration that has not been issued. -/
lemma not_owns {r : RegistrationId} {domain : String} (h : e.provider.next ≤ r) :
    ¬ e.Owns r domain := by
  intro howns
  have hpos := owners_pos_iff.2 ⟨domain, howns⟩
  have hle := a.places_le r
  have hnot : e.provider.hasIssued r = false := by
    simp only [Provider.hasIssued, Bool.and_eq_false_iff, decide_eq_false_iff_not]
    exact .inr (Nat.not_lt.2 h)
  rw [hnot] at hle
  simp only [places, Bool.toNat_false] at hle
  omega

/-- A registration that somebody has was never handed over for withdrawal. -/
theorem handovers_of_owns {r : RegistrationId} {domain : String} (h : e.Owns r domain) :
    e.handovers r = 0 := by
  have hpos := owners_pos_iff.2 ⟨domain, h⟩
  have hle := a.places_le r
  have hone := Bool.toNat_le (e.provider.hasIssued r)
  unfold places at hle
  omega

/-- Nobody has a registration that is to be withdrawn. -/
lemma not_owns_of_mem {r : RegistrationId} {domain : String} (h : r ∈ e.withdrawals) :
    ¬ e.Owns r domain := by
  intro howns
  have hzero := a.handovers_of_owns howns
  have hcount := List.count_pos_iff.2 h
  unfold handovers at hzero
  omega

/-- Nothing is handed over for withdrawal more than once. -/
theorem handovers_le_one (r : RegistrationId) : e.handovers r ≤ 1 := by
  have hle := a.places_le r
  have hone := Bool.toNat_le (e.provider.hasIssued r)
  unfold places at hle
  omega

/-! ## One transition -/

/-- The account depends on who has a registration and on what has been withdrawn. -/
theorem congr (hp : e'.provider = e.provider) (hplaces : ∀ r, e'.places r = e.places r)
    (howns : ∀ r domain, e'.Owns r domain → e.Owns r domain)
    (hk : ∀ r, kept' r → kept r) : e'.AccountedFor kept' where
  next_pos := by
    rw [hp]
    exact a.next_pos
  places_le r := by
    rw [hplaces, hp]
    exact a.places_le r
  le_places r h := by
    rw [hplaces, hp]
    exact a.le_places r (hk r h)
  provided_iff := by
    rw [hp]
    exact a.provided_iff
  pattern r domain h := by
    rw [hp]
    exact a.pattern r domain (howns r domain h)

omit a in
/-- Nobody is new to a registration if whoever has one now had it before. -/
lemma owns_of_owns {r : RegistrationId} {domain : String} (h : e'.Owns r domain)
    (hd : ∀ id d, e'.dials.get? id = some d → d.stage.link? ≠ none → e.dials.get? id = some d)
    (hq : ∀ domain id link, .attempted domain id (some link) ∈ e'.queue →
      .attempted domain id (some link) ∈ e.queue)
    (ht : ∀ k x, e'.registry.table.get? k = some x → x.link? ≠ none →
      e.registry.table.get? k = some x) : e.Owns r domain := by
  obtain ⟨hget, hl, hr, hdom⟩ | ⟨hmem, hr⟩ | ⟨hget, hl, hr⟩ := h
  · exact .dial (hd _ _ hget (by simp [hl])) hl hr hdom
  · exact .report (hq _ _ _ hmem) hr
  · exact .session (ht _ _ hget (by simp [hl])) hl hr

/-- Steps beside the sessions keep the account. -/
lemma aside (h : e.Untouched e') (hk : ∀ r, kept' r → kept r) : e'.AccountedFor kept' := by
  obtain ⟨extra, hq, hextra⟩ := h.queue
  refine a.congr h.provider (fun r => ?_) (fun r domain howns => ?_) hk
  · have hzero : extra.countP (·.carries r) = 0 :=
      List.countP_eq_zero.2 fun c hc => by simp [Command.carries_of_isReport (hextra c hc)]
    simp only [places, owners, handovers, h.dials, h.table, h.withdrawals, h.provider, hq,
      List.countP_append, hzero, Nat.add_zero]
  · refine owns_of_owns howns (fun _ _ hget _ => h.dials ▸ hget) (fun k id link hc => ?_)
      fun _ _ hget _ => h.table ▸ hget
    rw [hq] at hc
    rcases List.mem_append.1 hc with hc | hc
    · exact hc
    · exact absurd (hextra _ hc) (by simp [Command.isReport])

omit a in
/-- The owners of a registration, with the first command of the queue apart. -/
lemma owners_of_queue {c : Command} {rest : List Command} (hq : e.queue = c :: rest)
    (r : RegistrationId) :
    e.owners r = e.dials.count (fun _ d => d.carries r) + rest.countP (·.carries r)
      + (e.registry.table.count fun _ x => x.holds r) + (c.carries r).toNat := by
  rw [owners, hq, List.countP_cons]
  cases c.carries r
  · simp
  · simp
    omega

/-- The account is kept when the registry answers a command. -/
theorem served {tasked : SessionId → Prop} (t : e.TalliedFor tasked) {c : Command}
    {rest : List Command} (hq : e.queue = c :: rest)
    (hs : e.Served rest c e') (hk : ∀ r, kept' r → kept r) : e'.AccountedFor kept' := by
  have hmem : c ∈ e.queue := hq ▸ List.mem_cons_self
  have hrest : ∀ k i l, .attempted k i (some l) ∈ rest → .attempted k i (some l) ∈ e.queue :=
    fun _ _ _ h => hq ▸ List.mem_cons_of_mem c h
  have howners := owners_of_queue hq
  cases hs with
  | known | unusable | refused | forwarded | listed | ignored =>
    -- the command has carried no registration
    refine a.congr rfl (fun r => ?_) (fun r domain h => ?_) hk
    · rw [places, places, howners]
      rfl
    · exact owns_of_owns h (fun _ _ hget _ => hget) hrest fun _ _ hget _ => hget
  | @begun info address hnone _ =>
    -- neither the attempt nor the session has a registration yet
    refine a.congr rfl (fun r => ?_) (fun r domain h => ?_) hk
    · have hdials := e.dials.count_insert (fun _ d => d.carries r) e.nextSession
        { domain := info.key, address }
      have htable := e.registry.table.count_insert (fun _ x => x.holds r) info.key
        (.connecting e.nextSession address)
      rw [t.dials_fresh, Table.share_none] at hdials
      rw [hnone, Table.share_none] at htable
      rw [places, places, howners]
      simp only [owners, withTable, taken, handovers, Dial.carries, DialStage.link?, Entry.holds,
        Entry.link?, Command.carries, Option.any_none, Bool.toNat_false] at hdials htable ⊢
      omega
    · refine owns_of_owns h (fun _ _ hget hl => ?_) hrest fun _ _ hget hl => ?_
      · obtain ⟨-, rfl⟩ | hget := Table.get?_of_get?_insert hget
        · exact absurd rfl hl
        · exact hget
      · obtain ⟨-, rfl⟩ | hget := Table.get?_of_get?_insert hget
        · exact absurd rfl hl
        · exact hget
  | @joined domain id address link hget =>
    -- the registration goes from the report to the session
    refine a.congr rfl (fun r => ?_) (fun r k h => ?_) hk
    · have htable := e.registry.table.count_insert (fun _ x => x.holds r) domain
        (.connected id address link)
      rw [hget, Table.share_some] at htable
      rw [places, places, howners]
      simp only [owners, withTable, taken, handovers, Entry.holds, Entry.link?, Command.carries,
        Option.any_none, Option.any_some, Bool.toNat_false] at htable ⊢
      omega
    · obtain ⟨hd, hl, hr, hdom⟩ | ⟨hmem', hr⟩ | ⟨hx, hl, hr⟩ := h
      · exact .dial hd hl hr hdom
      · exact .report (hrest _ _ _ hmem') hr
      · obtain ⟨rfl, rfl⟩ | hx := Table.get?_of_get?_insert hx
        · rw [Entry.link?, Option.some.injEq] at hl
          rw [← hl] at hr
          exact .report hmem hr
        · exact .session hx hl hr
  | @failed domain id address hget =>
    -- the attempt is over already, so that nothing is broken off
    have hdials : e.dials.erase id = e.dials := Table.erase_eq_self (t.dials_of_attempted hmem)
    refine a.congr rfl (fun r => ?_) (fun r k h => ?_) hk
    · have htable := e.registry.table.count_erase (fun _ x => x.holds r) domain
      rw [hget, Table.share_some] at htable
      rw [places, places, howners]
      simp only [owners, withTable, taken, handovers, hdials, Entry.holds, Entry.link?,
        Command.carries, Option.any_none, Bool.toNat_false] at htable ⊢
      omega
    · exact owns_of_owns h (fun _ _ hd _ => Table.get?_of_get?_erase hd) hrest
        fun _ _ hx _ => Table.get?_of_get?_erase hx
  | @ended domain id entry link hget hid hl =>
    -- the registration goes from the session to the withdrawals
    refine a.congr rfl (fun r => ?_) (fun r k h => ?_) hk
    · have htable := e.registry.table.count_erase (fun _ x => x.holds r) domain
      rw [hget, Table.share_some, Entry.holds, hl, Option.any_some] at htable
      have hcount := count_append_singleton e.withdrawals link.registration r
      rw [places, places, howners]
      simp only [owners, withTable, taken, handovers, hcount, Command.carries,
        Bool.toNat_false] at htable ⊢
      omega
    · exact owns_of_owns h (fun _ _ hd _ => hd) hrest fun _ _ hx _ => Table.get?_of_get?_erase hx
  -- reports are about sessions that stand
  | discarded hstale =>
    obtain ⟨address, hget⟩ := t.connecting_of_attempted hmem
    exact absurd hget (hstale address)
  | broken hget =>
    obtain ⟨address, link, hjoined⟩ := t.joined_of_lost hmem
    exact absurd (hget.symm.trans hjoined) (by simp)

/-- An attempt that goes on without a registration changes nothing. -/
theorem advanced {id : SessionId} {d : Dial} {stage : DialStage} (hd : e.dials.get? id = some d)
    (hold : d.stage.link? = none) (hnew : stage.link? = none) (hk : ∀ r, kept' r → kept r) :
    (e.advance id stage).AccountedFor kept' := by
  refine a.congr rfl (fun r => ?_) (fun r k h => ?_) hk
  · have hcount := e.dials.count_modify (fun _ d => d.carries r) id fun d => { d with stage }
    rw [hd, Option.map_some, Table.share_some, Table.share_some, Dial.carries, Dial.carries, hold,
      hnew] at hcount
    simp only [places, owners, handovers, advance]
    omega
  · refine owns_of_owns h (fun i d' hget hl => ?_) (fun _ _ _ hc => hc) fun _ _ hx _ => hx
    change (e.dials.modify id _).get? i = _ at hget
    rw [Table.get?_modify] at hget
    split at hget
    · rw [hd, Option.map_some, Option.some.injEq] at hget
      rw [← hget] at hl
      exact absurd hnew hl
    · exact hget

omit a in
lemma hasIssued_next (p : Provider) : p.hasIssued p.next = false := by
  rw [Provider.hasIssued, decide_eq_false (Nat.lt_irrefl _), Bool.and_false]

/-- Providing a pattern issues one registration. -/
lemma hasIssued_provide (pattern : String) (r : RegistrationId) :
    (e.provider.provide pattern).2.hasIssued r
      = if r = e.provider.next then true else e.provider.hasIssued r := by
  have hpos := a.next_pos
  split
  · next hr =>
    rw [hr, Provider.hasIssued, decide_eq_true hpos, Bool.true_and]
    exact decide_eq_true (Nat.lt_succ_self _)
  · next hr =>
    have hlt : r < e.provider.next + 1 ↔ r < e.provider.next := by
      rw [Nat.lt_succ_iff_lt_or_eq, or_iff_left hr]
    simp only [Provider.hasIssued, Provider.provide, hlt]

/-- The next registration has no place. -/
lemma places_next : e.places e.provider.next = 0 := by
  have hle := a.places_le e.provider.next
  rw [hasIssued_next, Bool.toNat_false] at hle
  exact Nat.le_zero.1 hle

/-- The next registration has not been withdrawn. -/
lemma next_not_withdrawn : e.provider.next ∉ e.provider.withdrawn := fun hmem => by
  have hzero := a.places_next
  have hcount := List.count_pos_iff.2 hmem
  simp only [places, handovers] at hzero
  omega

/-- A registration that is issued goes to the attempt that has asked for it. -/
theorem provided {id : SessionId} {domain : String} {address : Endpoint} {connection : ConnectionId}
    (hd : e.dials.get? id = some ⟨domain, address, .providing connection⟩)
    (hp : e'.provider = (e.provider.provide (DomainInfo.routePattern domain)).2)
    (hdials : e'.dials = e.dials.modify id fun d =>
      { d with stage := .finished (some ⟨connection, e.provider.next⟩) })
    (hq : e'.queue = e.queue) (ht : e'.registry.table = e.registry.table)
    (hw : e'.withdrawals = e.withdrawals) (hk : ∀ r, kept' r → kept r) :
    e'.AccountedFor kept' := by
  have hissued : ∀ r, e'.provider.hasIssued r
      = if r = e.provider.next then true else e.provider.hasIssued r := fun r => by
    rw [hp]
    exact a.hasIssued_provide _ r
  have hprovided : e'.provider.provided
      = e.provider.provided.insert e.provider.next (DomainInfo.routePattern domain) := by
    rw [hp]
    rfl
  have hwithdrawn : e'.provider.withdrawn = e.provider.withdrawn := by
    rw [hp]
    rfl
  -- there is one place more, and it is that of the new registration
  have hplaces : ∀ r, e'.places r = e.places r + (decide (e.provider.next = r)).toNat := fun r => by
    have hcount := e.dials.count_modify (fun _ d => d.carries r) id
      fun d => { d with stage := .finished (some ⟨connection, e.provider.next⟩) }
    rw [hd, Option.map_some, Table.share_some, Table.share_some] at hcount
    change _ + (false).toNat = _ + (decide (e.provider.next = r)).toNat at hcount
    rw [Bool.toNat_false] at hcount
    simp only [places, owners, handovers, hdials, hq, ht, hw, hwithdrawn]
    omega
  refine ⟨?_, fun r => ?_, fun r h => ?_, fun r => ?_, fun r k h => ?_⟩
  · rw [hp]
    exact Nat.succ_pos _
  · rw [hplaces, hissued]
    by_cases hr : r = e.provider.next
    · rw [hr, if_pos rfl, a.places_next]
      simp
    · rw [if_neg hr, decide_eq_false fun he => hr he.symm]
      exact a.places_le r
  · rw [hplaces, hissued]
    by_cases hr : r = e.provider.next
    · rw [hr, if_pos rfl]
      simp
    · rw [if_neg hr, decide_eq_false fun he => hr he.symm]
      exact a.le_places r (hk r h)
  · rw [hprovided, hissued, hwithdrawn, Table.get?_insert]
    by_cases hr : r = e.provider.next
    · rw [if_pos hr, if_pos hr, hr]
      simp [a.next_not_withdrawn]
    · rw [if_neg hr, if_neg hr]
      exact a.provided_iff r
  · -- who had a registration before has not been given this one
    have hold : e.Owns r k → e'.provider.provided.get? r = some (DomainInfo.routePattern k) :=
      fun ho => by
        have hne : r ≠ e.provider.next := fun he => a.not_owns (Nat.le_of_eq he.symm) ho
        rw [hprovided, Table.get?_insert, if_neg hne]
        exact a.pattern r k ho
    obtain ⟨hget, hl, hr, hdom⟩ | ⟨hmem, hr⟩ | ⟨hget, hl, hr⟩ := h
    · rw [hdials, Table.get?_modify] at hget
      split at hget
      · -- this is the attempt that has the new registration
        rw [hd, Option.map_some, Option.some.injEq] at hget
        subst hget
        rw [DialStage.link?, Option.some.injEq] at hl
        subst hl
        rw [← hr, ← hdom, hprovided, Table.get?_insert, if_pos rfl]
      · exact hold (.dial hget hl hr hdom)
    · rw [hq] at hmem
      exact hold (.report hmem hr)
    · rw [ht] at hget
      exact hold (.session hget hl hr)

/-- The registration of an attempt that is over goes to its report. -/
theorem concluded {id : SessionId} {domain : String} {address : Endpoint} {outcome : Option Link}
    (hd : e.dials.get? id = some ⟨domain, address, .finished outcome⟩)
    (hk : ∀ r, kept' r → kept r) :
    AccountedFor { e with
      dials := e.dials.erase id
      queue := e.queue ++ [.attempted domain id outcome] } kept' := by
  refine a.congr rfl (fun r => ?_) (fun r k h => ?_) hk
  · have hcount := e.dials.count_erase (fun _ d => d.carries r) id
    rw [hd, Table.share_some] at hcount
    simp only [places, owners, handovers, List.countP_append, List.countP_singleton]
    have hone : (if Command.carries r (.attempted domain id outcome) = true then 1 else 0)
        = (Dial.carries r ⟨domain, address, .finished outcome⟩).toNat := by
      change (if outcome.any (·.registration = r) = true then 1 else 0)
        = (outcome.any (·.registration = r)).toNat
      cases outcome.any (·.registration = r) <;> rfl
    omega
  · obtain ⟨hget, hl, hr, hdom⟩ | ⟨hmem, hr⟩ | ⟨hget, hl, hr⟩ := h
    · exact .dial (Table.get?_of_get?_erase hget) hl hr hdom
    · rcases List.mem_append.1 hmem with hmem | hmem
      · exact .report hmem hr
      · cases List.mem_singleton.1 hmem
        exact .dial hd rfl hr rfl
    · exact .session hget hl hr

/-- An attempt that nobody hears of leaves no other registration without an owner than its own. -/
theorem unheard {id : SessionId} {d : Dial} (hd : e.dials.get? id = some d)
    (hk : ∀ r, kept' r → kept r ∧ d.carries r = false) :
    AccountedFor { e with dials := e.dials.erase id } kept' := by
  have hplaces : ∀ r, places { e with dials := e.dials.erase id } r + (d.carries r).toNat
      = e.places r := fun r => by
    have hcount := e.dials.count_erase (fun _ d => d.carries r) id
    rw [hd, Table.share_some] at hcount
    simp only [places, owners, handovers]
    omega
  refine ⟨a.next_pos, fun r => ?_, fun r h => ?_, a.provided_iff, fun r k h => ?_⟩
  · exact Nat.le_trans (Nat.le_of_add_right_le (Nat.le_of_eq (hplaces r))) (a.places_le r)
  · have hsame := hplaces r
    rw [(hk r h).2, Bool.toNat_false, Nat.add_zero] at hsame
    rw [hsame]
    exact a.le_places r (hk r h).1
  · exact a.pattern r k (owns_of_owns h (fun _ _ hd _ => Table.get?_of_get?_erase hd)
      (fun _ _ _ hc => hc) fun _ _ hx _ => hx)

/-- A registration that is withdrawn has no owner. -/
theorem withdrew {r : RegistrationId} (hr : r ∈ e.withdrawals) (hk : ∀ r, kept' r → kept r) :
    AccountedFor { e with
      withdrawals := e.withdrawals.erase r
      provider := e.provider.withdraw r } kept' := by
  have hplaces : ∀ r', places { e with
      withdrawals := e.withdrawals.erase r
      provider := e.provider.withdraw r } r' = e.places r' := fun r' => by
    have hpos := List.count_pos_iff.2 hr
    simp only [places, owners, handovers, Provider.withdraw, List.count_append, List.count_erase,
      List.count_singleton]
    by_cases he : r = r'
    · subst he
      simp
      omega
    · simp [he]
  -- the registration goes from those to be withdrawn to those that have been
  refine ⟨a.next_pos, fun r' => ?_, fun r' h => ?_, fun r' => ?_, fun r' k h => ?_⟩
  · rw [hplaces]
    exact a.places_le r'
  · rw [hplaces]
    exact a.le_places r' (hk r' h)
  · change ((e.provider.provided.erase r).get? r').isSome = true ↔
      e.provider.hasIssued r' = true ∧ r' ∉ e.provider.withdrawn ++ [r]
    have hiff := a.provided_iff r'
    rw [Table.get?_erase]
    by_cases he : r' = r
    · simp [he]
    · simp only [he, if_false, hiff, List.mem_append, List.mem_singleton, or_false]
  · have ho : e.Owns r' k :=
      owns_of_owns h (fun _ _ hd _ => hd) (fun _ _ _ hc => hc) fun _ _ hx _ => hx
    have hne : r' ≠ r := fun he => a.not_owns_of_mem (he ▸ hr) ho
    change (e.provider.provided.erase r).get? r' = _
    rw [Table.get?_erase, if_neg hne]
    exact a.pattern r' k ho

/-- The account is kept by whatever happens while the registry runs, but for a registration that is
left without an owner. -/
theorem transition {tasked : SessionId → Prop} (t : e.TalliedFor tasked) {b : ExchangeAction}
    (h : e.Transition b e') (hr : e'.running = true)
    (hk : ∀ r, kept' r → kept r ∧ ¬e.Drops b r) : e'.AccountedFor kept' := by
  have hkept : ∀ r, kept' r → kept r := fun r h => (hk r h).1
  cases h with
  | aside h => exact a.aside h hkept
  | served hq h => exact a.served t hq h hkept
  | stopped h => exact absurd hr (by simp [h])
  | advanced hd hold hnew => exact a.advanced hd hold hnew hkept
  | provided hd => exact a.provided hd rfl rfl rfl rfl rfl hkept
  | concluded hd => exact a.concluded hd hkept
  | unheard hd hnot =>
    refine a.unheard hd fun r h => ⟨hkept r h, Bool.eq_false_iff.2 fun hc => (hk r h).2 ?_⟩
    exact ⟨hnot, _, _, rfl, hd, hc⟩
  | noticed =>
    refine a.congr rfl (fun r => ?_) (fun r k h => ?_) hkept
    · simp [places, owners, handovers, List.countP_append, Command.carries]
    · refine owns_of_owns h (fun _ _ hd _ => hd) (fun k i l hc => ?_) fun _ _ hx _ => hx
      rcases List.mem_append.1 hc with hc | hc
      · exact hc
      · exact absurd (List.mem_singleton.1 hc) (by simp)
  | unnoticed =>
    exact a.congr rfl (fun _ => rfl) (fun r k h => owns_of_owns h (fun _ _ hd _ => hd)
      (fun _ _ _ hc => hc) fun _ _ hx _ => hx) hkept
  | withdrew hmem => exact a.withdrew hmem hkept

end AccountedFor

/-! ## Any run -/

section Start

variable {name : String} {permits : Nat} {refusal : Option SessionError} {e : Exchange}
  (h : start name permits refusal = .ok e)
include h

lemma provider_of_start : e.provider
    = ⟨2, (∅ : Table RegistrationId String).insert 1 (DomainInfo.routePattern name), []⟩ := by
  rw [eq_of_start h]
  rfl

lemma table_of_start : e.registry.table
    = (∅ : Table String Entry).insert name (.home 0 ⟨homeConnection, 1⟩) := by
  rw [eq_of_start h]
  rfl

lemma hasIssued_of_start (r : RegistrationId) : e.provider.hasIssued r = decide (1 = r) := by
  rw [provider_of_start h, Provider.hasIssued, ← Bool.decide_and, decide_eq_decide]
  constructor
  · rintro ⟨hpos, hlt⟩
    exact Nat.le_antisymm hpos (Nat.le_of_lt_succ hlt)
  · rintro rfl
    exact ⟨Nat.one_pos, Nat.one_lt_two⟩

lemma places_of_start (r : RegistrationId) : e.places r = (decide (1 = r)).toNat := by
  have hcount := (∅ : Table String Entry).count_insert (fun _ x => x.holds r) name
    (.home 0 ⟨homeConnection, 1⟩)
  rw [Table.get?_empty, Table.share_none, Table.count_empty, Nat.zero_add] at hcount
  have hdials : e.dials = ∅ := by rw [eq_of_start h]
  have hqueue : e.queue = [] := by rw [eq_of_start h]
  have hwithdrawals : e.withdrawals = [] := by rw [eq_of_start h]
  simp only [places, owners, handovers, hdials, hqueue, table_of_start h, hwithdrawals,
    provider_of_start h, Table.count_empty, List.countP_nil, List.count_nil, Nat.zero_add,
    Nat.add_zero]
  exact hcount

/-- At the beginning there is the registration of the home domain. -/
theorem accountedFor_of_start (kept : RegistrationId → Prop) : e.AccountedFor kept := by
  refine ⟨?_, fun r => ?_, fun r _ => ?_, fun r => ?_, fun r domain howns => ?_⟩
  · rw [provider_of_start h]
    exact Nat.two_pos
  · exact Nat.le_of_eq (by rw [places_of_start h, hasIssued_of_start h])
  · exact Nat.le_of_eq (by rw [places_of_start h, hasIssued_of_start h])
  · rw [hasIssued_of_start h, provider_of_start h, Table.get?_insert, Table.get?_empty]
    by_cases hr : r = 1
    · simp [hr]
    · have hr' : 1 ≠ r := fun he => hr he.symm
      simp [hr, hr']
  · obtain ⟨hd, -, -, -⟩ | ⟨hmem, -⟩ | ⟨hx, hl, hr⟩ := howns
    · rw [eq_of_start h] at hd
      exact absurd hd (by simp)
    · rw [eq_of_start h] at hmem
      exact absurd hmem (by simp)
    · rw [table_of_start h] at hx
      obtain ⟨rfl, rfl⟩ | hx := Table.get?_of_get?_insert hx
      · rw [Entry.link?, Option.some.injEq] at hl
        rw [← hr, ← hl, provider_of_start h]
        exact (Table.get?_insert ..).trans (if_pos rfl)
      · exact absurd hx (by simp)

/-- The account is right at the start. -/
lemma accounted_of_start : e.Accounted := accountedFor_of_start h _

end Start

/-- While the queue is kept open, the account stays complete. -/
theorem Accounted.step {e e' : Exchange} {b : ExchangeAction} (a : e.Accounted) (t : e.Tallied)
    (h : e.step b = some e') (hr : e'.running = true) : e'.Accounted := by
  have htrans := transition_of_step h
  refine a.transition t htrans hr fun r hh => ?_
  have hheld := htrans.isHeld hr hh
  exact ⟨hheld, fun hdrops => absurd hheld (by simp [hdrops.1])⟩

/-- The account is kept along every run, until the registry stops. -/
theorem accounted_of_reaches {e e' : Exchange} (a : e.Accounted) (t : e.Tallied)
    (h : e.Reaches e') (hr : e'.running = true) : e'.Accounted :=
  h.invariant hr a fun _ _ _ hm hrun hs hrun' am =>
    am.step (tallied_of_reaches t hm hrun) hs hrun'

/-- The account is complete along every run but for the registrations that have been left without an
owner. -/
theorem accountedFor_of_past {e₀ e : Exchange} {l : List (Exchange × ExchangeAction)}
    (a : e₀.AccountedFor fun _ => True) (t : e₀.Tallied) (h : Past e₀ l e)
    (hr : e.running = true) : e.AccountedFor fun r => ¬Dropped l r := by
  induction h with
  | started => exact a.congr rfl (fun _ => rfl) (fun _ _ h => h) fun _ _ => trivial
  | step hm hs ih =>
    have htrans := transition_of_step hs
    have hrun := htrans.running hr
    have tm := tallied_of_reaches t (Past.reaches hm) hrun
    refine (ih hrun).transition tm htrans hr fun r hnot => ⟨fun hbefore => ?_, fun h => ?_⟩
    · obtain ⟨p, hp, hdrops⟩ := hbefore
      exact hnot ⟨p, List.mem_cons_of_mem _ hp, hdrops⟩
    · exact hnot ⟨_, List.mem_cons_self, h⟩

/-! ## The whole account -/

/-- The patterns of the domains that calls can be forwarded to. -/
def routedPatterns (e : Exchange) : List String :=
  (e.registry.listing.filter (·.2.isConnected)).map fun entry => DomainInfo.routePattern entry.1

/-- Whether no attempt, be it under way or reported, has a registration. -/
def noneCarried (e : Exchange) : Prop :=
  (∀ id d, e.dials.get? id = some d → d.stage.link? = none) ∧
    ∀ domain id link, .attempted domain id (some link) ∉ e.queue

/-- The registrations of the sessions, with the patterns of their domains. -/
def linked (e : Exchange) : List (RegistrationId × String) :=
  e.registry.listing.filterMap fun entry =>
    entry.2.link?.map fun link => (link.registration, DomainInfo.routePattern entry.1)

/-- Different domains have different patterns. -/
lemma routePattern_inj {d d' : String}
    (h : DomainInfo.routePattern d = DomainInfo.routePattern d') : d = d' := by
  unfold DomainInfo.routePattern at h
  exact (String.append_left_inj "/").1 h

/-- The links of sessions have the patterns that calls are routed by. -/
lemma map_snd_linked (e : Exchange) : e.linked.map Prod.snd = e.routedPatterns := by
  unfold linked routedPatterns
  induction e.registry.listing with
  | nil => rfl
  | cons entry rest ih => cases hl : entry.2.link? <;> simp [hl, Entry.isConnected, ih]

/-- Every pattern is routed to one session. -/
lemma nodup_routedPatterns (e : Exchange) : e.routedPatterns.Nodup := by
  have hkeys : ((e.registry.listing.filter (·.2.isConnected)).map Prod.fst).Nodup :=
    (Table.nodup_keys e.registry.table).sublist (List.filter_sublist.map _)
  have hmap : e.routedPatterns = ((e.registry.listing.filter (·.2.isConnected)).map Prod.fst).map
      DomainInfo.routePattern := by
    rw [List.map_map]
    rfl
  rw [hmap]
  exact List.Nodup.map (fun _ _ h => routePattern_inj h) hkeys

lemma mem_linked_iff {e : Exchange} {r : RegistrationId} {pattern : String} :
    (r, pattern) ∈ e.linked ↔ ∃ domain x link, e.registry.table.get? domain = some x ∧
      x.link? = some link ∧ link.registration = r ∧ DomainInfo.routePattern domain = pattern := by
  simp only [linked, List.mem_filterMap, Option.map_eq_some_iff, Prod.mk.injEq]
  constructor
  · rintro ⟨⟨domain, x⟩, hmem, link, hl, hr, hp⟩
    exact ⟨domain, x, link, Table.mem_entries_iff.1 hmem, hl, hr, hp⟩
  · rintro ⟨domain, x, link, hget, hl, hr, hp⟩
    exact ⟨(domain, x), Table.mem_entries_iff.2 hget, link, hl, hr, hp⟩

/-- When nothing is under way, what is provided is what the sessions have. -/
lemma AccountedFor.entries_perm {e : Exchange} {kept : RegistrationId → Prop}
    (a : e.AccountedFor kept) (hk : ∀ r, kept r) (hc : e.noneCarried) (hw : e.withdrawals = []) :
    e.provider.provided.entries.Perm e.linked := by
  have hnodup : e.linked.Nodup := by
    have h := e.nodup_routedPatterns
    rw [← map_snd_linked] at h
    exact List.Nodup.of_map _ h
  have hentries : e.provider.provided.entries.Nodup :=
    List.Nodup.of_map _ (Table.nodup_keys e.provider.provided)
  -- both are free of duplicates, so it is enough to compare their members
  refine (List.perm_ext_iff_of_nodup hentries hnodup).2 ?_
  rintro ⟨r, pattern⟩
  rw [Table.mem_entries_iff, mem_linked_iff]
  constructor
  · intro hget
    obtain ⟨hissued, hnot⟩ := (a.provided_iff r).1 (by rw [hget]; rfl)
    -- what is provided is not handed over, so that a session must own it
    have hpos : 0 < e.owners r := by
      have hle := a.le_places r (hk r)
      rw [hissued, places, handovers, hw, List.count_nil, List.count_eq_zero.2 hnot] at hle
      exact hle
    obtain ⟨domain, howns⟩ := owners_pos_iff.1 hpos
    have hpattern := a.pattern r domain howns
    rw [hget, Option.some.injEq] at hpattern
    obtain ⟨hd, hl, -, -⟩ | ⟨hmem, -⟩ | ⟨hx, hl, hr⟩ := howns
    · exact absurd (hl.symm.trans (hc.1 _ _ hd)) (by simp)
    · exact absurd hmem (hc.2 _ _ _)
    · exact ⟨domain, _, _, hx, hl, hr, hpattern.symm⟩
  · rintro ⟨domain, x, link, hget, hl, hr, rfl⟩
    exact a.pattern r domain (.session hget hl hr)

/-- No registration is leaked, shared or withdrawn twice, after all of `l`. -/
structure Balanced (e : Exchange) (l : List (Exchange × ExchangeAction)) : Prop where
  /-- A registration that has been issued is at one place. Only one that has been left without an
  owner may be at none. -/
  issued : ∀ r, e.provider.hasIssued r = true →
    e.places r ≤ 1 ∧ (e.places r = 1 ∨ Dropped l r)
  /-- As long as anything keeps the queue open, no registration has been left without an owner. -/
  owned : e.isHeld = true → ∀ r, ¬Dropped l r
  /-- A registration that has not been issued is nowhere. -/
  unissued : ∀ r, e.provider.hasIssued r = false → e.places r = 0
  /-- Whoever has a registration has it for the pattern of its domain, which is provided. -/
  pattern : ∀ r domain, e.Owns r domain →
    e.provider.provided.get? r = some (DomainInfo.routePattern domain)
  /-- A pattern is provided from when its registration is issued until it is withdrawn. -/
  provided : ∀ r, (e.provider.provided.get? r).isSome = true ↔
    e.provider.hasIssued r = true ∧ r ∉ e.provider.withdrawn
  /-- What has been handed over for withdrawal can be withdrawn, -/
  withdraws : ∀ r ∈ e.withdrawals, ∃ e', e.step (.withdraw r) = some e' ∧
    r ∈ e'.provider.withdrawn ∧ e'.provider.provided = e.provider.provided.erase r
  /-- and nothing is handed over twice. -/
  once : (e.withdrawals ++ e.provider.withdrawn).Nodup
  /-- When no registration is on its way, and none has been left without an owner, the patterns of
  the domains that can be called are provided, each of them once, and no others. -/
  settled : (∀ r, ¬Dropped l r) → e.noneCarried → e.withdrawals = [] →
    e.provider.patterns.Perm e.routedPatterns ∧ e.provider.patterns.Nodup

/-- What has been handed over for withdrawal can be withdrawn. -/
lemma exists_withdrawn {e : Exchange} {r : RegistrationId} (h : r ∈ e.withdrawals) :
    ∃ e', e.step (.withdraw r) = some e' ∧ r ∈ e'.provider.withdrawn ∧
      e'.provider.provided = e.provider.provided.erase r := by
  have hstep : e.step (.withdraw r) = some
      { e with
        withdrawals := e.withdrawals.erase r
        provider := e.provider.withdraw r } := by
    simp only [step, withdraw, if_pos h]
  exact ⟨_, hstep, List.mem_append_right _ (List.mem_singleton_self r), rfl⟩

/-- While the registry runs, every registration is accounted for, but for those that have been left
without an owner. -/
theorem balanced_of_past {name : String} {permits : Nat} {refusal : Option SessionError}
    {e₀ e : Exchange} {l : List (Exchange × ExchangeAction)}
    (h₀ : start name permits refusal = .ok e₀) (h : Past e₀ l e) (hr : e.running = true) :
    e.Balanced l := by
  have a := accountedFor_of_past (accountedFor_of_start h₀ _) (tallied_of_start h₀) h hr
  refine ⟨fun r hr => ?_, not_dropped_of_isHeld h hr, fun r hr => ?_, a.pattern, a.provided_iff,
    fun _ => exists_withdrawn, ?_, fun hk hc hw => ?_⟩
  · have hle := a.places_le r
    have hge := a.le_places r
    rw [hr, Bool.toNat_true] at hle hge
    refine ⟨hle, (Classical.em (Dropped l r)).elim .inr fun hnot => .inl ?_⟩
    exact Nat.le_antisymm hle (hge hnot)
  · have hle := a.places_le r
    rw [hr, Bool.toNat_false] at hle
    exact Nat.le_zero.1 hle
  · rw [List.nodup_iff_count_le_one]
    intro r
    have hle := a.handovers_le_one r
    rwa [handovers, ← List.count_append] at hle
  · have hperm : e.provider.patterns.Perm e.routedPatterns := by
      rw [← map_snd_linked]
      exact (a.entries_perm hk hc hw).map Prod.snd
    exact ⟨hperm, hperm.nodup_iff.2 e.nodup_routedPatterns⟩

/-- A domain is lost and heard again before its first registration is withdrawn: its pattern is
provided twice, and both registrations are accounted for. -/
theorem balanced_of_return :
    let lostAndHeard : List ExchangeAction := [.discover ⟨"10.0.0.5", 9000, "alpha", "r1"⟩,
      .serve, .dial 1, .connect 1 (some 1), .provide 1 true, .conclude 1, .serve, .lose 1,
      .notice 1, .serve, .discover ⟨"10.0.0.5", 9000, "alpha", "r1"⟩, .serve, .dial 4,
      .connect 4 (some 2), .provide 4 true, .conclude 4, .serve]
    let e := alone.run lostAndHeard
    start "home" 4 none = .ok alone ∧ Past alone (alone.trail lostAndHeard) e ∧
      e.running = true ∧ e.isHeld = true ∧
      e.provider.patterns = ["home/", "alpha/", "alpha/"] ∧ e.withdrawals = [2] ∧
      e.registry.route? "alpha" = some ⟨2, 3⟩ ∧ e.Balanced (alone.trail lostAndHeard) :=
  ⟨start_alone, past_trail .., by rfl, by rfl, by decide, by decide, by decide,
    balanced_of_past start_alone (past_trail ..) (by rfl)⟩

/-- Without regard to who keeps the queue open, a registration may be nowhere: the registry runs and
has a command to handle, nothing is on its way, and a pattern is provided besides those of the
domains that can be called. -/
theorem unbalanced_of_belated :
    alone.Reaches belated ∧ belated.running = true ∧ (belated.step .serve).isSome = true ∧
      belated.provider.hasIssued 2 = true ∧ belated.places 2 = 0 ∧
      belated.noneCarried ∧ belated.withdrawals = [] ∧
      belated.provider.patterns = ["home/", "alpha/"] ∧ belated.routedPatterns = ["home/"] := by
  have hdials : belated.dials = ∅ := by decide +kernel
  have hqueue : belated.queue = [.list 0] := by decide +kernel
  refine ⟨reaches_run .., by decide +kernel, by decide +kernel, by decide +kernel,
    by decide +kernel, ⟨fun id d hd => ?_, fun domain id link hmem => ?_⟩, by decide +kernel,
    by decide +kernel, by decide +kernel⟩
  · rw [hdials] at hd
    exact absurd hd (by simp)
  · rw [hqueue] at hmem
    exact absurd hmem (by simp)

end Exchange
end Switchboard
