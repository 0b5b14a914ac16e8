import Switchboard.Proofs.Exchange.Home
import Switchboard.Station

/-!
# Who has a domain

A domain that the listener knows is in the custody of exactly one: a discovery on its way to the
registry, a session, or a request to forget it on its way back. A domain that nobody has is not
known, so that its next heartbeat is news.

* `Exchange.charge` counts what the exchange has of a domain. `charge_of_step` says that nothing
  that happens inside the exchange changes it: what a discovery leaves is a session or a request to
  forget, and what a session leaves is such a request.
* `Station.Kept` adds the listener, and `kept_of_step` carries it over every action.
* `Station.Custody` is what it comes to, and `custody_of_start` says that it always holds.
-/

namespace Switchboard
namespace Exchange

/-- How many queued commands say that a domain has been heard. -/
def announcements (e : Exchange) (name : String) : Nat :=
  (e.queue.filterMap Command.discovered?).countP fun info => info.key = name

/-- How often an exchange has a domain: as a discovery, as a session, or as a request to forget. -/
def charge (e : Exchange) (name : String) : Nat :=
  e.announcements name + e.forgets.count name + (e.registry.table.contains name).toNat

/-! ## Inside the exchange -/

/-- Nothing has happened that concerns discovery. -/
structure Quiet (e e' : Exchange) : Prop where
  table : e'.registry.table = e.registry.table := by rfl
  forgets : e'.forgets = e.forgets := by rfl
  announced : e'.queue.filterMap Command.discovered? = e.queue.filterMap Command.discovered? :=
    by rfl

/-- What is quiet changes nothing in the custody of a domain. -/
theorem Quiet.charge {e e' : Exchange} (h : e.Quiet e') (name : String) :
    e'.charge name = e.charge name := by
  rw [Exchange.charge, Exchange.charge, announcements, announcements, h.table, h.forgets,
    h.announced]

lemma quiet_tell (e : Exchange) {c : Command} (hc : c.discovered? = none) :
    e.Quiet (e.tell c) := by
  obtain ⟨h, -⟩ | ⟨h, -⟩ := e.tell_cases c <;> rw [h]
  · exact {}
  · exact { announced := by simp [hc] }

lemma quiet_offer (e : Exchange) (i : Invocation) : e.Quiet (e.offer i) := by
  obtain ⟨-, h⟩ | ⟨message, h⟩ := e.offer_cases i <;> rw [h]
  · exact { announced := by simp [Command.discovered?] }
  · exact {}

/-- An action that has nothing to do with discovery is the answer to a command, or nothing has
happened that concerns discovery. -/
lemma quiet_or_served {e e' : Exchange} {a : ExchangeAction} (ha : a.isInner = true)
    (h : e.step a = some e') (hr : e'.running = true) :
    e.Quiet e' ∨ ∃ c rest, e.queue = c :: rest ∧ e.Served rest c e' := by
  cases change_of_step h with
  | discovered | followed | passed | unpassed | unfollowed | forgot =>
    exact absurd ha (by simp [ExchangeAction.isInner])
  | stopped => exact absurd hr (by simp)
  | served _ hq hs => exact .inr ⟨_, _, hq, hs⟩
  | called | invoked => exact .inl (e.quiet_offer _)
  | asked =>
    refine .inl { announced := ?_ }
    unfold ask
    split <;> simp [Command.discovered?]
  | shut => exact .inl { announced := by simp [Command.discovered?] }
  | @concluded id domain _ outcome =>
    exact .inl { quiet_tell { e with dials := e.dials.erase id }
      (rfl : (Command.attempted domain id outcome).discovered? = none) with }
  | @noticed id w =>
    exact .inl { quiet_tell { e with watches := e.watches.erase id }
      (rfl : (Command.lost w.domain id).discovered? = none) with }
  | shared | released | left | lost | dialed | connected | unreachable | provided | unprovided
  | withdrew | begun | settled | answered => exact .inl {}

section Charge

variable {e e' : Exchange} {c : Command} {rest : List Command} (hq : e.queue = c :: rest)
include hq

/-- The discoveries of a domain, with the first command of the queue apart. -/
lemma announcements_of_queue (name : String) :
    e.announcements name = (rest.filterMap Command.discovered?).countP (fun info => info.key = name)
      + (c.discovered?.any fun info => info.key = name).toNat := by
  unfold announcements
  rw [hq]
  cases c with
  | discovered info =>
    rw [List.filterMap_cons_some (rfl : (Command.discovered info).discovered? = some info),
      List.countP_cons]
    cases hk : decide (info.key = name) <;> simp [Command.discovered?, hk]
  | _ => rfl

/-- What the registry does with a command leaves the charge as it is, unless it hears of a domain
that has a session. -/
lemma charge_of_served (hs : e.Served rest c e') {name : String}
    (hnew : ∀ info, c = .discovered info → info.key = name →
      e.registry.table.contains name = false) : e'.charge name = e.charge name := by
  have hann := announcements_of_queue hq name
  have hrest : ∀ {x : Exchange}, x.queue = rest → x.announcements name
      = (rest.filterMap Command.discovered?).countP fun info => info.key = name := fun hx => by
    rw [announcements, hx]
  -- a session that ends leaves a request to forget
  have hend : ∀ domain, (e.registry.table.get? domain).isSome = true →
      (e.forgets ++ [domain]).count name + ((e.registry.table.erase domain).contains name).toNat
        = e.forgets.count name + (e.registry.table.contains name).toNat := fun domain hsome => by
    rw [Table.contains, Table.contains, Table.get?_erase, count_append_singleton]
    by_cases hd : name = domain
    · subst hd
      simp [hsome]
    · have hd' : domain ≠ name := fun he => hd he.symm
      simp [hd, hd']
  cases hs with
  | @known info hk =>
    have hne : info.key ≠ name := fun he => by
      have hnone := hnew info rfl he
      rw [← he, hk] at hnone
      exact absurd hnone (by simp)
    rw [charge, charge, hann, hrest rfl]
    simp [Command.discovered?, hne, taken]
  | @unusable info hnone _ =>
    rw [charge, charge, hann, hrest rfl]
    have hcount := count_append_singleton e.forgets info.key name
    simp only [taken, hcount, Command.discovered?, Option.any_some]
    omega
  | @begun info address hnone _ =>
    have hcontains : ((e.registry.table.insert info.key
        (.connecting e.nextSession address)).contains name).toNat
        = (e.registry.table.contains name).toNat + (decide (info.key = name)).toNat := by
      rw [Table.contains, Table.contains, Table.get?_insert]
      by_cases hk : name = info.key
      · rw [hk, hnone]
        simp
      · have hk' : info.key ≠ name := fun he => hk he.symm
        simp [hk, hk']
    rw [charge, charge, hann, hrest rfl]
    simp only [taken, withTable, hcontains, Command.discovered?, Option.any_some]
    omega
  | @joined domain id address link hget =>
    have hcontains : (e.registry.table.insert domain (.connected id address link)).contains name
        = e.registry.table.contains name := by
      rw [Table.contains, Table.contains, Table.get?_insert]
      by_cases hd : name = domain
      · rw [hd, hget]
        simp
      · rw [if_neg hd]
    rw [charge, charge, hann, hrest rfl]
    simp only [taken, withTable, hcontains, Command.discovered?, Option.any_none, Bool.toNat_false,
      Nat.add_zero]
  | @failed domain id address hget | @broken domain id address hget =>
    have h := hend domain (by rw [hget]; rfl)
    rw [charge, charge, hann, hrest rfl]
    simp only [taken, withTable, Command.discovered?, Option.any_none, Bool.toNat_false]
    omega
  | @ended domain id entry link hget _ _ =>
    have h := hend domain (by rw [hget]; rfl)
    rw [charge, charge, hann, hrest rfl]
    simp only [taken, withTable, Command.discovered?, Option.any_none, Bool.toNat_false]
    omega
  | discarded | ignored | refused | forwarded | listed =>
    rw [charge, charge, hann, hrest rfl]
    rfl

end Charge

/-- Nothing that happens inside the exchange changes a domain's charge, as long as the domain has no
session when the registry hears of it. -/
theorem charge_of_step {e e' : Exchange} {a : ExchangeAction} {name : String}
    (ha : a.isInner = true) (h : e.step a = some e') (hr : e'.running = true)
    (hle : e.charge name ≤ 1) : e'.charge name = e.charge name := by
  obtain hquiet | ⟨c, rest, hq, hs⟩ := quiet_or_served ha h hr
  · exact hquiet.charge name
  · apply charge_of_served hq hs
    rintro info rfl hk
    -- the discovery in the queue is the one charge, which leaves none for a session
    have hann := announcements_of_queue hq name
    rw [Command.discovered?, Option.any_some, decide_eq_true hk, Bool.toNat_true] at hann
    unfold charge at hle
    cases hc : e.registry.table.contains name with
    | false => rfl
    | true =>
      rw [hc, Bool.toNat_true] at hle
      omega

/-- The home domain stays where it is, and nobody asks for it to be forgotten. -/
theorem home_of_step {e e' : Exchange} {a : ExchangeAction} {name : String} (t : e.Tallied)
    (ha : a.isInner = true) (h : e.step a = some e') (hr : e'.running = true)
    (hhome : ∃ id link, e.registry.table.get? name = some (.home id link)) :
    (∃ id link, e'.registry.table.get? name = some (.home id link)) ∧
      e'.forgets.count name = e.forgets.count name := by
  obtain ⟨id, link, hget⟩ := hhome
  obtain hquiet | ⟨c, rest, hq, hs⟩ := quiet_or_served ha h hr
  · rw [hquiet.table, hquiet.forgets]
    exact ⟨⟨id, link, hget⟩, rfl⟩
  · obtain ⟨hstays, ended, hforgets, hended⟩ := home_of_served t hq hs hget
    refine ⟨⟨id, link, hstays⟩, ?_⟩
    rw [hforgets, List.count_append, List.count_eq_zero.2 hended, Nat.add_zero]

end Exchange

namespace Station

/-! ## The listener and what lies between -/

variable {s s' : Station}

/-- A station's exchange goes its own way. -/
theorem exchange_step {a : StationAction} (h : s.step a = some s') :
    s'.exchange = s.exchange ∨ ∃ x, s.exchange.step x = some s'.exchange := by
  cases a with
  | receive | enqueue =>
    simp only [step, listen, Option.map_eq_some_iff] at h
    obtain ⟨⟨event, l⟩, -, rfl⟩ := h
    exact .inl rfl
  | pass =>
    simp only [step, pass] at h
    split at h
    · next info l _ =>
      simp only [Option.map_eq_some_iff] at h
      obtain ⟨x, hx, rfl⟩ := h
      exact .inr ⟨.event info, hx⟩
    · exact absurd h (by simp)
  | forget =>
    simp only [step, forget] at h
    split at h
    · exact absurd h (by simp)
    · split at h
      · next hx =>
        rw [← Option.some.inj h]
        exact .inr ⟨.takeForget, hx⟩
      · exact absurd h (by simp)
  | within x =>
    simp only [step] at h
    split at h
    · simp only [Option.map_eq_some_iff] at h
      obtain ⟨y, hy, rfl⟩ := h
      exact .inr ⟨x, hy⟩
    · exact absurd h (by simp)

/-- How many discoveries of a domain the listener has. -/
def announced (s : Station) (name : String) : Nat :=
  s.listener.blocked.toList.countP (fun info => info.key = name)
    + s.listener.events.countP fun info => info.key = name

/-- What a station has of a domain is what its listener and its exchange have of it. -/
lemma discoveries_add (s : Station) (name : String) :
    s.discoveries name + s.requests name + (s.hasSession name).toNat
      = s.announced name + s.exchange.charge name := by
  simp only [discoveries, awaited, requests, hasSession, announced, Exchange.charge,
    Exchange.announcements, List.countP_append, List.countP_reverse]
  omega

/-- What holds of a station in every state. -/
structure Kept (s : Station) (home : String) : Prop where
  tallied : s.exchange.Tallied
  idle : s.listener.forgets = []
  total : ∀ name, name ≠ home →
    s.announced name + s.exchange.charge name = (s.knows name).toNat
  resident : ∃ id link, s.exchange.registry.table.get? home = some (.home id link)
  unasked : s.requests home = 0

/-- A datagram changes nothing, refreshes a domain that is known, or makes one known and raises an
event. -/
lemma receive_cases (l : Listener) (datagram : List UInt8) :
    l.receive datagram = l ∨
      ∃ info, l.receive datagram
        = { l with
            tracker := ⟨l.tracker.known.insert info.key info⟩
            blocked := if l.tracker.knows info.key then none else some info } := by
  have htracker : (∃ error, l.tracker.receive (Listener.truncate l.buffer datagram)
        (Listener.limit l.buffer) = (.error error, l.tracker)) ∨
      ∃ info, l.tracker.receive (Listener.truncate l.buffer datagram) (Listener.limit l.buffer)
        = (.ok (if l.tracker.knows info.key then none else some info),
          ⟨l.tracker.known.insert info.key info⟩) := by
    unfold Tracker.receive
    split
    · exact .inl ⟨_, rfl⟩
    · split
      · exact .inl ⟨_, rfl⟩
      · next info _ => exact .inr ⟨info, rfl⟩
  obtain ⟨error, h⟩ | ⟨info, h⟩ := htracker
  · left
    rw [Listener.receive, h]
  · right
    exact ⟨info, by rw [Listener.receive, h]⟩

lemma knows_insert (t : Tracker) (info : DomainInfo) (name : String) :
    (Tracker.mk (t.known.insert info.key info)).knows name
      = (decide (name = info.key) || t.knows name) := by
  simp only [Tracker.knows, Table.contains, Table.get?_insert]
  by_cases hk : name = info.key <;> simp [hk]

namespace Kept

variable {home : String} (k : s.Kept home)
include k

/-- A domain that becomes known is announced. -/
theorem received {datagram : List UInt8} (hready : s.listener.blocked = none) :
    Kept { s with listener := s.listener.receive datagram } home := by
  obtain h | ⟨info, h⟩ := receive_cases s.listener datagram <;> rw [h]
  · exact k
  · refine ⟨k.tallied, k.idle, fun name hne => ?_, k.resident, k.unasked⟩
    have htotal := k.total name hne
    simp only [announced, knows, hready, knows_insert, Option.toList_none, List.countP_nil,
      Nat.zero_add] at htotal ⊢
    by_cases hk : name = info.key
    · subst hk
      -- only a domain that has not been known raises an event
      cases hknown : s.listener.tracker.knows info.key with
      | true =>
        rw [hknown] at htotal
        simpa using htotal
      | false =>
        rw [hknown, Bool.toNat_false] at htotal
        simp
        omega
    · have hk' : info.key ≠ name := fun he => hk he.symm
      rw [decide_eq_false hk, Bool.false_or, ← htotal]
      split <;> simp [hk']

/-- An event that is queued is still announced. -/
theorem enqueued {info : DomainInfo} (hblocked : s.listener.blocked = some info) :
    Kept { s with listener := { s.listener with
      blocked := none
      events := s.listener.events ++ [info] } } home := by
  refine ⟨k.tallied, k.idle, fun name hne => ?_, k.resident, k.unasked⟩
  have htotal := k.total name hne
  change _ = (s.knows name).toNat
  rw [← htotal]
  simp only [announced, hblocked, Option.toList_none, Option.toList_some, List.countP_nil,
    List.countP_append]
  omega

/-- What happens inside the exchange leaves everything in custody. -/
theorem within {e : Exchange} {a : ExchangeAction} (ha : a.isInner = true)
    (h : s.exchange.step a = some e) (hr : e.running = true) :
    Kept { s with exchange := e } home := by
  have hhome := Exchange.home_of_step k.tallied ha h hr k.resident
  refine ⟨k.tallied.step h hr, k.idle, fun name hne => ?_,
    hhome.1, hhome.2.trans k.unasked⟩
  have htotal := k.total name hne
  have hone := Bool.toNat_le (s.knows name)
  have hcharge := Exchange.charge_of_step ha h hr (by omega : s.exchange.charge name ≤ 1)
  change s.announced name + e.charge name = (s.knows name).toNat
  omega

/-- An event that is passed on is queued for the registry. -/
theorem passed {info : DomainInfo} {rest : List DomainInfo} {e : Exchange}
    (hevents : s.listener.events = info :: rest) (h : s.exchange.event info = some e)
    (hr : e.running = true) :
    Kept { listener := { s.listener with events := rest }, exchange := e } home := by
  have hstep : s.exchange.step (.event info) = some e := h
  have htallied := k.tallied.step hstep hr
  cases Exchange.change_of_step hstep with
  | passed =>
    refine ⟨htallied, k.idle, fun name hne => ?_, k.resident, k.unasked⟩
    have htotal := k.total name hne
    change _ = (s.knows name).toNat
    rw [← htotal]
    simp only [announced, Exchange.charge, Exchange.announcements, hevents, List.filterMap_append,
      List.countP_append, List.countP_cons, Command.discovered?, List.filterMap_cons,
      List.filterMap_nil, List.countP_nil]
    omega
  | unpassed _ hstopped => exact absurd (hstopped.symm.trans hr) (by simp)

/-- A domain that is forgotten is nowhere. -/
theorem forgotten {name : String} {rest : List String}
    (hforgets : s.exchange.forgets = name :: rest) :
    Kept { listener := { s.listener with tracker := (s.listener.tracker.forget name).2 }
           exchange := { s.exchange with forgets := rest } } home := by
  -- nobody asks for the home domain to be forgotten
  have hne : name ≠ home := fun he => by
    have hzero := k.unasked
    rw [requests, hforgets, ← he, List.count_cons_self] at hzero
    omega
  refine ⟨k.tallied.aside {} fun _ => id, k.idle, fun x hx => ?_, k.resident, ?_⟩
  · have htotal := k.total x hx
    have hone := Bool.toNat_le (s.knows x)
    simp only [announced, knows, Tracker.knows, Tracker.forget, Exchange.charge,
      Exchange.announcements, hforgets, Table.contains, Table.get?_erase] at htotal hone ⊢
    by_cases hk : x = name
    · subst hk
      rw [List.count_cons_self] at htotal
      rw [if_pos rfl, Option.isSome_none, Bool.toNat_false]
      omega
    · rw [List.count_cons_of_ne (fun he => hk he.symm)] at htotal
      rw [if_neg hk]
      exact htotal
  · have hzero := k.unasked
    rw [requests, hforgets, List.count_cons_of_ne hne] at hzero
    exact hzero

/-- Everything stays in custody, whatever happens. -/
theorem step {a : StationAction} (h : s.step a = some s') (hr : s'.exchange.running = true) :
    s'.Kept home := by
  cases a with
  | receive datagram =>
    simp only [Station.step, listen, Listener.step] at h
    split at h
    · next hready =>
      rw [← Option.some.inj h]
      exact k.received (by simpa [Listener.isReady] using hready)
    · exact absurd h (by simp)
  | enqueue =>
    simp only [Station.step, listen, Listener.step] at h
    split at h
    · exact absurd h (by simp)
    · next hblocked =>
      split at h
      · rw [← Option.some.inj h]
        exact k.enqueued hblocked
      · exact absurd h (by simp)
  | pass =>
    simp only [Station.step, pass, Listener.step] at h
    split at h
    · next info listener htake =>
      simp only [Option.map_eq_some_iff] at h
      obtain ⟨e, he, rfl⟩ := h
      split at htake
      · exact absurd htake (by simp)
      · next hevents =>
        simp only [Option.some.injEq, Prod.mk.injEq] at htake
        obtain ⟨rfl, rfl⟩ := htake
        exact k.passed hevents he hr
    · exact absurd h (by simp)
  | forget =>
    -- the pump is idle, so that a request to forget is passed on in the same step
    simp only [Station.step, forget] at h
    split at h
    · exact absurd h (by simp)
    · next name rest hforgets =>
      simp only [Listener.step, Exchange.step, hforgets, k.idle, List.nil_append,
        Option.bind_some, List.isEmpty_cons, Bool.false_eq_true, if_false, List.tail_cons] at h
      by_cases hready : s.listener.blocked = none
      · rw [if_pos (by simp [Listener.isReady, hready])] at h
        rw [← Option.some.inj h]
        have hkept := k.forgotten hforgets
        rw [← k.idle]
        exact hkept
      · rw [if_neg (by simpa [Listener.isReady] using hready)] at h
        exact absurd h (by simp)
  -- only the steps of the exchange that touch no event and no request are left
  | within x =>
    simp only [Station.step] at h
    split at h
    · next hinner =>
      simp only [Option.map_eq_some_iff] at h
      obtain ⟨e, he, rfl⟩ := h
      exact k.within hinner he hr
    · exact absurd h (by simp)

end Kept

/-- At the beginning nothing is known, and only the home domain has a session. -/
theorem kept_of_start {name : String} {permits : Nat} {refusal : Option SessionError}
    {e : Exchange} (h : Exchange.start name permits refusal = .ok e) (buffer : Nat) :
    (start buffer e).Kept name := by
  have hstart : start buffer e = ⟨{ buffer }, { e with following := true }⟩ := by
    rw [Exchange.eq_of_start h]
    rfl
  have hget := Exchange.get?_start name 0 ⟨Exchange.homeConnection, 1⟩ permits
  have htallied := Exchange.tallied_of_start h
  rw [hstart]
  refine ⟨?_, rfl, fun x hx => ?_, ?_, ?_⟩
  · have hstep : e.step .follow = some { e with following := true } := by
      rw [Exchange.eq_of_start h]
      rfl
    refine htallied.step hstep ?_
    rw [Exchange.eq_of_start h]
  · rw [Exchange.eq_of_start h]
    simp only [announced, knows, Tracker.knows, Exchange.charge, Exchange.announcements,
      Table.contains, hget, if_neg hx]
    rfl
  · rw [Exchange.eq_of_start h]
    exact ⟨0, _, (hget name).trans (if_pos rfl)⟩
  · rw [Exchange.eq_of_start h]
    rfl

/-- Everything stays in custody along every run, until the registry stops. -/
theorem kept_of_reaches {home : String} (k : s.Kept home) (h : s.Reaches s')
    (hr : s'.exchange.running = true) : s'.Kept home := by
  induction h with
  | refl => exact k
  | @step m n a _ hs ih =>
    have hrun : m.exchange.running = true := by
      obtain heq | ⟨x, hx⟩ := exchange_step hs
      · rw [← heq]
        exact hr
      · exact (Exchange.transition_of_step hx).running hr
    exact (ih hrun).step hs hr

/-! ## Custody -/

/-- A domain other than the home domain is known if and only if exactly one has it. -/
structure Custody (s : Station) (home : String) : Prop where
  /-- A domain is known if there is one discovery, one session or one request to forget it. -/
  known : ∀ name, name ≠ home →
    (s.knows name = true ↔
      s.discoveries name + s.requests name + (s.hasSession name).toNat = 1)
  /-- There are never two of them. -/
  single : ∀ name, name ≠ home →
    s.discoveries name + s.requests name + (s.hasSession name).toNat ≤ 1
  /-- No domain is to be forgotten twice, and the home domain not at all. -/
  requested : ∀ name, s.requests name ≤ (decide (name ≠ home)).toNat
  /-- Only the home domain is heard of while it has a session. -/
  heard : ∀ info, .discovered info ∈ s.exchange.queue →
    s.exchange.registry.table.contains info.key = true → info.key = home

/-- Until the registry stops, no domain is lost and none is there twice. -/
theorem custody_of_start {name : String} {permits buffer : Nat} {refusal : Option SessionError}
    {e : Exchange} {s : Station} (h₀ : Exchange.start name permits refusal = .ok e)
    (h : (start buffer e).Reaches s) (hr : s.exchange.running = true) : s.Custody name := by
  have k := kept_of_reaches (kept_of_start h₀ buffer) h hr
  -- all clauses follow from the total, which is at most one
  have htotal : ∀ x, x ≠ name →
      s.discoveries x + s.requests x + (s.hasSession x).toNat = (s.knows x).toNat := fun x hx => by
    rw [discoveries_add]
    exact k.total x hx
  have hone : ∀ x, (s.knows x).toNat ≤ 1 := fun x => Bool.toNat_le _
  refine ⟨fun x hx => ?_, fun x hx => ?_, fun x => ?_, fun info hmem hsession => ?_⟩
  · rw [htotal x hx]
    cases s.knows x <;> simp
  · rw [htotal x hx]
    exact hone x
  · by_cases hx : x = name
    · rw [hx, k.unasked]
      exact Nat.zero_le _
    · have h := htotal x hx
      have h' := hone x
      rw [decide_eq_true hx, Bool.toNat_true]
      omega
  · by_cases hx : info.key = name
    · exact hx
    · -- a domain with a session has no room for a discovery in its total
      have hpos : 0 < s.discoveries info.key := by
        rw [discoveries, List.countP_pos_iff]
        exact ⟨info, by simpa [awaited, Command.discovered?] using .inr (.inr ⟨_, hmem, rfl⟩),
          by simp⟩
      have h := htotal _ hx
      have h' := hone info.key
      rw [hasSession, hsession, Bool.toNat_true] at h
      omega

lemma Reaches.trans {m : Station} (h : s.Reaches m) (h' : m.Reaches s') : s.Reaches s' := by
  induction h' with
  | refl => exact h
  | step a _ hs ih => exact .step a ih hs

/-- Performs actions one after the other, leaving out those that are not possible. -/
def run (s : Station) (actions : List StationAction) : Station :=
  actions.foldl (fun s a => (s.step a).getD s) s

lemma reaches_run (s : Station) (actions : List StationAction) : s.Reaches (s.run actions) := by
  induction actions generalizing s with
  | nil => exact .refl
  | cons a rest ih =>
    have hrest := ih ((s.step a).getD s)
    rw [run, List.foldl_cons]
    cases hs : s.step a with
    | none =>
      rw [hs] at hrest
      exact hrest
    | some s' =>
      rw [hs] at hrest
      exact (Reaches.step a .refl hs).trans hrest

/-- A domain is heard, cannot be reached and is heard again before it is forgotten. The second
heartbeat is no news: the request to forget still has the domain. -/
theorem custody_of_failed_attempt :
    let heartbeat := Heartbeat.bytes ⟨"10.0.0.5", 9000, "alpha", "r1"⟩
    let s := (start 1024 .alone).run [.receive heartbeat, .enqueue, .pass, .within .serve,
      .within (.dial 1), .within (.connect 1 none), .within (.conclude 1), .within .serve,
      .receive heartbeat]
    Exchange.start "home" 4 none = .ok .alone ∧ (start 1024 .alone).Reaches s ∧
      s.exchange.running = true ∧ s.knows "alpha" = true ∧ s.requests "alpha" = 1 ∧
      s.Custody "home" :=
  ⟨Exchange.start_alone, reaches_run .., by decide +kernel, by decide +kernel, by decide +kernel,
    custody_of_start Exchange.start_alone (reaches_run ..) (by decide +kernel)⟩

end Station
end Switchboard
