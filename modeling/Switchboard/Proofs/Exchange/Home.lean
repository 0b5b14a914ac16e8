import Switchboard.Proofs.Exchange.Lifecycle
import Switchboard.Proofs.Exchange.Outcomes
import Switchboard.Proofs.Exchange.Registrations

/-!
# The home session

A domain hears its own heartbeats all the time, and its registry takes them as it takes those of any
other domain. The home session stands all the same: it has neither an attempt nor a watch, and these
are what ends a session.

* `home_of_served` is one command of the registry, `resident_of_step` any action.
* `Exchange.Permanent` is what it comes to in every state, and `permanent_of_start` says that it
  does.
-/

namespace Switchboard
namespace Exchange

variable {e e' e₀ : Exchange} {a : ExchangeAction} {name : String}

/-! ## One action -/

/-- The registry's answer to a command does not end the home session, and nobody asks for its domain
to be forgotten. -/
theorem home_of_served (t : e.Tallied) {c : Command} {rest : List Command}
    (hq : e.queue = c :: rest) (hs : e.Served rest c e') {id : SessionId} {link : Link}
    (hget : e.registry.table.get? name = some (.home id link)) :
    e'.registry.table.get? name = some (.home id link) ∧
      ∃ ended, e'.forgets = e.forgets ++ ended ∧ name ∉ ended := by
  have hmem : c ∈ e.queue := hq ▸ List.mem_cons_self
  have hnone : ∃ ended, e.forgets = e.forgets ++ ended ∧ name ∉ ended :=
    ⟨[], (List.append_nil _).symm, List.not_mem_nil⟩
  have hone : ∀ {domain : String}, domain ≠ name →
      ∃ ended, e.forgets ++ [domain] = e.forgets ++ ended ∧ name ∉ ended := fun hne =>
    ⟨_, rfl, fun h => hne (List.mem_singleton.1 h).symm⟩
  -- the domain of any other session is another domain
  have hother : ∀ {domain : String} {x : Entry}, e.registry.table.get? domain = some x →
      x.isHome = false → domain ≠ name := fun hx hhome he => by
    rw [he, hget] at hx
    rw [← Option.some.inj hx] at hhome
    exact absurd hhome (by simp [Entry.isHome])
  have herase : ∀ {domain : String}, domain ≠ name →
      (e.registry.table.erase domain).get? name = some (.home id link) := fun hne => by
    rw [Table.get?_erase, if_neg hne.symm, hget]
  have hinsert : ∀ {domain : String} (x : Entry), domain ≠ name →
      (e.registry.table.insert domain x).get? name = some (.home id link) := fun x hne => by
    rw [Table.get?_insert, if_neg hne.symm, hget]
  have hnew : ∀ {domain : String}, e.registry.table.get? domain = none → domain ≠ name :=
    fun h he => by
      rw [he, hget] at h
      exact absurd h (by simp)
  cases hs with
  | known | discarded | ignored | refused | forwarded | listed => exact ⟨hget, hnone⟩
  | unusable h => exact ⟨hget, hone (hnew h)⟩
  | begun h => exact ⟨hinsert _ (hnew h), hnone⟩
  | joined h => exact ⟨hinsert _ (hother h rfl), hnone⟩
  | failed h | broken h =>
    have hne := hother h rfl
    exact ⟨herase hne, hone hne⟩
  | ended =>
    -- no watch reports the loss of the home session
    obtain ⟨address, l, hjoined⟩ := t.joined_of_lost hmem
    have hne := hother hjoined rfl
    exact ⟨herase hne, hone hne⟩

/-- Only the registry's answer to a command changes the sessions, or asks for a domain to be
forgotten. -/
lemma table_or_served (h : e.step a = some e') (hr : e'.running = true) :
    (e'.registry.table = e.registry.table ∧ e'.forgets <:+ e.forgets) ∨
      ∃ c rest, e.queue = c :: rest ∧ e.Served rest c e' := by
  have hsame : e'.registry.table = e.registry.table → e'.forgets = e.forgets →
      e'.registry.table = e.registry.table ∧ e'.forgets <:+ e.forgets :=
    fun ht hf => ⟨ht, hf ▸ List.suffix_refl _⟩
  cases change_of_step h with
  | stopped => exact absurd hr (by simp)
  | served _ hq hs => exact .inr ⟨_, _, hq, hs⟩
  | called | invoked =>
    obtain ⟨hregistry, -, hforgets⟩ := e.offer_fields _
    exact .inl (hsame (congrArg (·.table) hregistry) hforgets)
  | concluded | noticed =>
    obtain ⟨hregistry, -, hforgets, -⟩ := tell_fields _ _
    exact .inl (hsame (congrArg (·.table) hregistry) hforgets)
  | forgot => exact .inl ⟨rfl, List.tail_suffix _⟩
  | _ => exact .inl (hsame rfl rfl)

/-- A domain has the home session, it is the only one, and nobody is asked to forget it. -/
structure Resident (e : Exchange) (name : String) (id : SessionId) (link : Link) : Prop where
  entry : e.registry.table.get? name = some (.home id link)
  only : ∀ d x, e.registry.table.get? d = some x → x.isHome = true → d = name
  unforgotten : name ∉ e.forgets

variable {id : SessionId} {link : Link}

/-- The session of the home domain stays as it is with every step. -/
theorem resident_of_step (t : e.Tallied) (r : e.Resident name id link) (h : e.step a = some e')
    (hr : e'.running = true) : e'.Resident name id link := by
  have honly : ∀ d x, e'.registry.table.get? d = some x → x.isHome = true → d = name := by
    intro d x' hx' hhome
    obtain ⟨x, hx, hb⟩ | ⟨-, address, rfl⟩ := entry_of_transition (transition_of_step h) hr hx'
    · cases hb with
      | same => exact r.only d _ hx hhome
      | joined => exact absurd hhome (by simp [Entry.isHome])
    · exact absurd hhome (by simp [Entry.isHome])
  obtain ⟨htable, hforgets⟩ | ⟨c, rest, hq, hs⟩ := table_or_served h hr
  · exact ⟨by rw [htable, r.entry], honly, fun hmem => r.unforgotten (hforgets.subset hmem)⟩
  · obtain ⟨hget, ended, hforgets, hended⟩ := home_of_served t hq hs r.entry
    refine ⟨hget, honly, ?_⟩
    rw [hforgets, List.mem_append]
    exact not_or.2 ⟨r.unforgotten, hended⟩

/-! ## Any run -/

/-- The home session stands along every run, until the registry stops. -/
theorem resident_of_reaches (t : e₀.Tallied) (r : e₀.Resident name id link) (h : e₀.Reaches e)
    (hr : e.running = true) : e.Resident name id link :=
  h.invariant hr r fun _ _ _ hm hrun hs hrun' rm =>
    resident_of_step (tallied_of_reaches t hm hrun) rm hs hrun'

/-- No attempt is for the home domain. -/
lemma Resident.ne_of_dial (r : e.Resident name id link) (t : e.Tallied) {i : SessionId}
    {d : Dial} (hd : e.dials.get? i = some d) : d.domain ≠ name := by
  obtain ⟨address, hget⟩ := t.connecting_of_dial hd
  rintro rfl
  exact absurd (r.entry.symm.trans hget) (by simp)

/-- The home domain is the only one with a session of its kind. -/
lemma Resident.filter_listing (r : e.Resident name id link) :
    e.registry.listing.filter (·.2.isHome) = [(name, .home id link)] := by
  have hnodup : (e.registry.listing.filter (·.2.isHome)).Nodup :=
    (List.Nodup.of_map _ (Table.nodup_keys e.registry.table)).filter _
  rw [← List.perm_singleton, List.perm_ext_iff_of_nodup hnodup (List.nodup_singleton _)]
  rintro ⟨d, x⟩
  rw [List.mem_filter, List.mem_singleton, Registry.listing, Table.mem_entries_iff]
  constructor
  · rintro ⟨hget, hhome⟩
    obtain rfl := r.only d x hget hhome
    rw [← Option.some.inj (r.entry.symm.trans hget)]
  · intro h
    rw [(Prod.mk.inj h).1, (Prod.mk.inj h).2]
    exact ⟨r.entry, rfl⟩

/-! ## Calls for the home domain -/

variable {c : CallId} {connection : ConnectionId} {procedure : String} {arguments : CallResult}
  {ds : List Deed} {since : List (Exchange × ExchangeAction)}

/-- A forwarded call stays on its way, whatever happens. -/
theorem Underway.past (o : e.Lined) (u : e.Underway c connection procedure arguments ds)
    (h : Past e since e') :
    e'.Underway c connection procedure arguments (ds ++ record since c) := by
  induction h with
  | started =>
    rw [record, List.reverse_nil, List.flatMap_nil, List.append_nil]
    exact u
  | step h hs ih =>
    rw [record_cons, ← List.append_assoc]
    exact ih.step (lined_of_past o h) hs

/-- A forwarded call has been made, or it can be. -/
lemma Underway.made_or_begin (u : e.Underway c connection procedure arguments ds) :
    .made connection procedure arguments ∈ ds ∨
      ds = [] ∧ (e.step (.begin c)).isSome = true ∧
        e.deeds c (.begin c) = [.made connection procedure arguments] := by
  cases u with
  | ready hf =>
    refine .inr ⟨rfl, ?_, deeds_begin hf⟩
    simp only [Exchange.step, begin, hf]
    rfl
  | calling | answering | answered => exact .inl List.mem_cons_self

/-- A call for a procedure of a usable domain that finds a permit is forwarded. -/
lemma underway_of_head (hr : e.running = true) {i : Invocation}
    {rest : List Command} (hq : e.queue = .route c i :: rest) {text : String} {t : Target}
    {x : Entry} {link : Link} (hi : i.procedure = some text) (ht : t.NamedBy text)
    (hx : e.registry.table.get? t.domain = some x) (hl : x.link? = some link)
    (hp : 0 < e.registry.permits) :
    ∃ e', e.step .serve = some e' ∧
      e'.Underway c link.connection t.procedure ⟨i.args, i.kwargs⟩ [] := by
  have hroute : e.registry.route? t.domain = some link :=
    Registry.route?_eq_some_iff.2 ⟨x, hx, hl⟩
  have htarget : parseTarget i.procedure = .ok t := by
    rw [hi]
    exact parseTarget_eq_ok_iff.2 ht
  refine ⟨_, serve_route hr hq htarget hroute hp, .ready ?_⟩
  exact (Table.get?_insert ..).trans (if_pos rfl)

/-! ## The home domain in every state -/

/-- What holds of the home domain in every state. -/
structure Permanent (e : Exchange) (name : String) : Prop where
  /-- There is one home session. It has the name, the connection and the registration that it had at
  the start. -/
  home : e.registry.listing.filter (·.2.isHome) = [(name, .home 0 ⟨homeConnection, 1⟩)]
  /-- Its registration has not been handed over for withdrawal, and its pattern is provided. -/
  provided : 1 ∉ e.withdrawals ++ e.provider.withdrawn ∧
    e.provider.provided.get? 1 = some (DomainInfo.routePattern name)
  /-- Nobody is asked to forget the domain. -/
  unforgotten : name ∉ e.forgets
  /-- There is no attempt to reach the domain. -/
  undialed : ∀ id d, e.dials.get? id = some d → d.domain ≠ name
  /-- When the registry hears of the domain, nothing comes of it, whatever else is said of it. -/
  heard : ∀ info rest, e.queue = .discovered info :: rest → info.key = name →
    e.step .serve = some (e.taken rest)
  /-- When the registry comes to a call for the domain and has a permit, the call is made on the
  home connection, under the rest of its name: from then on it has been made, or can be. -/
  called : ∀ c i procedure rest, e.queue = .route c i :: rest →
    i.procedure = some (name ++ "/" ++ procedure) → procedure ≠ "" → 0 < e.registry.permits →
    ∃ e', e.step .serve = some e' ∧ ∀ since f, Past e' since f →
      f.Underway c homeConnection procedure ⟨i.args, i.kwargs⟩ (record since c) ∧
        (.made homeConnection procedure ⟨i.args, i.kwargs⟩ ∈ record since c ∨
          (f.step (.begin c)).isSome = true ∧
            f.deeds c (.begin c) = [.made homeConnection procedure ⟨i.args, i.kwargs⟩])

/-- A registry starts with a valid domain name only. -/
lemma checkDomainName_of_start {permits : Nat} {refusal : Option SessionError}
    (h : start name permits refusal = .ok e) : checkDomainName name = .ok () := by
  unfold start at h
  split at h
  · exact absurd h (by simp)
  · next hname => exact hname

/-- A registry starts with the session of its home domain. -/
lemma resident_of_start {permits : Nat} {refusal : Option SessionError}
    (h : start name permits refusal = .ok e) : e.Resident name 0 ⟨homeConnection, 1⟩ := by
  rw [eq_of_start h]
  have hget := get?_start name 0 ⟨homeConnection, 1⟩ permits
  refine ⟨(hget name).trans (if_pos rfl), fun d x hx _ => ?_, List.not_mem_nil⟩
  by_contra hne
  rw [hget, if_neg hne] at hx
  exact absurd hx (by simp)

/-- The home domain keeps its session, whatever is heard, made or lost, and in whatever order. -/
theorem permanent_of_start {permits : Nat} {refusal : Option SessionError}
    (h₀ : start name permits refusal = .ok e₀) (h : e₀.Reaches e) (hr : e.running = true) :
    e.Permanent name := by
  have t := tallied_of_reaches (tallied_of_start h₀) h hr
  have account := accounted_of_reaches (accounted_of_start h₀) (tallied_of_start h₀) h hr
  have o := lined_of_reaches (lined_of_start h₀) h
  have r := resident_of_reaches (tallied_of_start h₀) (resident_of_start h₀) h hr
  -- the first registration is that of the home domain
  have howned : e.Owns 1 name := .session r.entry rfl rfl
  refine ⟨r.filter_listing, ⟨?_, account.pattern _ name howned⟩, r.unforgotten,
    fun id d hd => r.ne_of_dial t hd, fun info rest hq hkey => ?_,
    fun c i procedure rest hq hi hp hpermit => ?_⟩
  · rw [← List.count_eq_zero, List.count_append]
    exact account.handovers_of_owns howned
  · have hknown : e.registry.table.contains info.key = true := by
      rw [Table.contains, hkey, r.entry]
      rfl
    rw [serve_cons hr hq (by simp), Registry.react, Registry.discover, if_pos hknown]
    rfl
  · have hnamed : Target.NamedBy ⟨name, procedure⟩ (name ++ "/" ++ procedure) :=
      ⟨rfl, checkDomainName_of_start h₀, hp⟩
    obtain ⟨e', hserve, u⟩ := underway_of_head hr hq hi hnamed r.entry rfl hpermit
    refine ⟨e', hserve, fun since f hpast => ?_⟩
    have hlater := u.past (o.step hserve) hpast
    rw [List.nil_append] at hlater
    exact ⟨hlater, hlater.made_or_begin.imp_right And.right⟩

/-- The home domain is heard with another realm and without an address, its connection is lost, and
a call for it comes in. -/
theorem permanent_of_echo :
    let e := alone.run [.discover ⟨"10.0.0.9", 9000, "home", "elsewhere"⟩,
      .discover ⟨"nowhere", 0, "home", ""⟩, .lose homeConnection, .serve, .serve, .call errand]
    start "home" 4 none = .ok alone ∧ alone.Reaches e ∧ e.running = true ∧
      e.queue = [.route 0 errand] ∧ e.registry.permits = 4 ∧ e.Permanent "home" :=
  ⟨start_alone, reaches_run .., by rfl, by rfl, by rfl,
    permanent_of_start start_alone (reaches_run ..) (by rfl)⟩

end Exchange
end Switchboard
