import Switchboard.Proofs.Exchange.Attempts
import Switchboard.Proofs.Exchange.Connections
import Switchboard.Proofs.Exchange.Lifecycle
import Switchboard.Proofs.Exchange.Outcomes

/-!
# Lost connections

A connection may be lost at any time, also before the session that it is for is usable. A watch
that begins later finds the loss all the same, and tells it; when the registry hears of it, it
removes the session.

* `Exchange.Guarded` says that a watch is over the connection of its session. With the tally of
  tasks, `notice_or_reported` follows: a loss is told, or can be.
* `Exchange.Removed` is what a removal comes to, at any time after it. That no call takes the old
  connection any more rests on the names of attempts: `mem_opened_of_knows` says which attempt a
  connection comes from.
* `Exchange.Cleared` puts both together, and `cleared_of_past` says that it holds in every run.
-/

namespace Switchboard

/-- The connection that an action brings, with the attempt that has made it. -/
def ExchangeAction.opened? : ExchangeAction → Option (ConnectionId × SessionId)
  | .connect id (some connection) => some (connection, id)
  | _ => none

namespace Exchange

variable {e e' e₀ m s : Exchange} {a : ExchangeAction} {l : List (Exchange × ExchangeAction)}
  {d : String} {id : SessionId} {address : Endpoint} {link : Link}

/-! ## Watches -/

/-- A watch over a session is one over its connection. -/
def Guarded (e : Exchange) : Prop :=
  ∀ id w address link, e.watches.get? id = some w →
    e.registry.table.get? w.domain = some (.connected id address link) →
    w.connection = link.connection

namespace Guarded

variable (g : e.Guarded)
include g

/-- No watch and no usable session is new. -/
theorem mono (hw : ∀ id w, e'.watches.get? id = some w → e.watches.get? id = some w)
    (ht : ∀ d x, e'.registry.table.get? d = some x → x.link? ≠ none →
      e.registry.table.get? d = some x) : e'.Guarded :=
  fun _ _ _ _ hget hx => g _ _ _ _ (hw _ _ hget) (ht _ _ hx (by simp [Entry.link?]))

/-- An answer to a command leaves the exchange guarded. -/
lemma served {c : Command} {rest : List Command} (hs : e.Served rest c e') : e'.Guarded := by
  cases hs with
  | known | unusable | discarded | ignored | refused | forwarded | listed =>
    exact g.mono (fun _ _ h => h) fun _ _ h _ => h
  | begun =>
    refine g.mono (fun _ _ h => h) fun _ _ h hl => ?_
    obtain ⟨-, rfl⟩ | h := Table.get?_of_get?_insert h
    · exact absurd rfl hl
    · exact h
  | failed | broken | ended =>
    exact g.mono (fun _ _ h => h) fun _ _ h _ => Table.get?_of_get?_erase h
  | joined =>
    intro i w place l hw hx
    change (e.watches.insert _ _).get? i = _ at hw
    change (e.registry.table.insert _ _).get? w.domain = _ at hx
    rw [Table.get?_insert] at hw hx
    split at hw
    · -- the session becomes usable, and its watch begins
      obtain rfl := Option.some.inj hw
      rw [if_pos rfl] at hx
      obtain ⟨-, -, rfl⟩ := Entry.connected.inj (Option.some.inj hx)
      rfl
    · next hne =>
      split at hx
      · obtain ⟨rfl, -⟩ := Entry.connected.inj (Option.some.inj hx)
        exact absurd rfl hne
      · exact g _ _ _ _ hw hx

/-- Every step that leaves the registry running leaves the exchange guarded. -/
lemma transition {a : ExchangeAction} (h : e.Transition a e') (hr : e'.running = true) :
    e'.Guarded := by
  cases h with
  | aside h =>
    refine g.mono (fun _ _ hw => ?_) fun _ _ hx _ => ?_
    · rwa [h.watches] at hw
    · rwa [h.table] at hx
  | served _ hs => exact g.served hs
  | stopped h => exact absurd hr (by simp [h])
  | noticed | unnoticed =>
    exact g.mono (fun _ _ hw => Table.get?_of_get?_erase hw) fun _ _ hx _ => hx
  | advanced | provided | concluded | unheard | withdrew =>
    exact g.mono (fun _ _ hw => hw) fun _ _ hx _ => hx

end Guarded

lemma guarded_of_reaches (g : e₀.Guarded) (h : e₀.Reaches e) (hr : e.running = true) :
    e.Guarded :=
  h.invariant hr g fun _ _ _ _ _ hs hrun gm => gm.transition (transition_of_step hs) hrun

/-- While the queue is kept open, the loss of a usable session's connection can be told, or has been
told. -/
theorem notice_or_reported (t : e.Tallied) (g : e.Guarded) (hh : e.isHeld = true)
    (hx : e.registry.table.get? d = some (.connected id address link))
    (hlost : link.connection ∈ e.lost) :
    (e.step (.notice id)).isSome = true ∨ .lost d id ∈ e.queue := by
  have hpos : 0 < e.lookouts d id := by
    have hle := t.le_lookouts d id hh
    rw [Registry.isJoined_iff.2 ⟨address, link, hx⟩] at hle
    exact hle
  -- the one task is the watch itself or what it has reported
  have htask : 0 < e.watches.count (fun i w => i = id && w.domain = d) ∨
      0 < e.queue.countP (·.reportsLoss d id) := Nat.add_pos_iff_pos_or_pos.1 hpos
  rcases htask with htask | htask
  · left
    obtain ⟨i, w, hw, hp⟩ := Table.count_pos_iff.1 htask
    obtain ⟨rfl, rfl⟩ : i = id ∧ w.domain = d := by simpa using hp
    have hconnection : w.connection ∈ e.lost := g i w address link hw hx ▸ hlost
    simp only [step, notice, hw, hconnection, if_true]
    rfl
  · right
    obtain ⟨c, hmem, hc⟩ := List.countP_pos_iff.1 htask
    cases c with
    | lost k i =>
      obtain ⟨rfl, rfl⟩ : k = d ∧ i = id := by simpa [Command.reportsLoss] using hc
      exact hmem
    | _ => exact absurd hc (by simp [Command.reportsLoss])

/-! ## Removal -/

/-- The registry hears that the connection of a usable session is lost. -/
lemma serve_ended {rest : List Command} (hr : s.running = true)
    (hq : s.queue = .lost d id :: rest)
    (hget : s.registry.table.get? d = some (.connected id address link)) :
    s.step .serve = some
      { (s.taken rest).withTable (s.registry.table.erase d) with
        withdrawals := s.withdrawals ++ [link.registration]
        forgets := s.forgets ++ [d] } := by
  rw [serve_cons hr hq (by simp)]
  simp only [Registry.react, Registry.lose, Registry.remove, hget, Entry.id, if_true]
  rfl

/-- A session that has been removed does not come back, under whatever domain. -/
lemma id_ne_of_removed (t : s.Tallied)
    (hget : s.registry.table.get? d = some (.connected id address link))
    (ht : m.registry.table = s.registry.table.erase d) (hn : s.nextSession ≤ m.nextSession)
    (h : m.Reaches e) (hr : e.running = true) {d' : String} {x : Entry}
    (hx : e.registry.table.get? d' = some x) : x.id ≠ id := by
  rintro rfl
  have hold : x.id < s.nextSession := t.id_lt d (.connected x.id address link) hget
  have hlt : x.id < m.nextSession := Nat.lt_of_lt_of_le hold hn
  obtain ⟨y, hy, hb⟩ := entry_of_reaches h hr hx hlt
  rw [ht, Table.get?_erase] at hy
  split at hy
  · exact absurd hy (by simp)
  · next hne => exact hne (t.id_inj d' d y _ hy hget hb.id_eq)

/-- What has been handed over for withdrawal stays so. -/
lemma Transition.handovers_le {a : ExchangeAction} (h : e.Transition a e')
    (hr : e'.running = true) (r : RegistrationId) : e.handovers r ≤ e'.handovers r := by
  cases h with
  | aside h => rw [handovers, handovers, h.withdrawals, h.provider]
  | served _ hs =>
    cases hs with
    | discarded | ended =>
      simp only [handovers, taken, withTable, List.count_append]
      omega
    | _ => exact Nat.le_refl _
  | stopped h => exact absurd hr (by simp [h])
  | @withdrew registration hmem =>
    simp only [handovers, Provider.withdraw, List.count_append, List.count_erase,
      List.count_singleton]
    split <;> omega
  | _ => exact Nat.le_refl _

/-- What has been handed over stays handed over. -/
lemma handovers_le_of_reaches (h : e₀.Reaches e) (hr : e.running = true) (r : RegistrationId) :
    e₀.handovers r ≤ e.handovers r :=
  h.invariant hr (Nat.le_refl _) fun _ _ _ _ _ hs hrun hle =>
    Nat.le_trans hle ((transition_of_step hs).handovers_le hrun r)

/-! ## Connections -/

/-- The connections that have been made, the home connection included, each with the name of its
attempt. -/
def opened (l : List (Exchange × ExchangeAction)) : List (ConnectionId × SessionId) :=
  (homeConnection, 0) :: l.filterMap (·.2.opened?)

lemma opened_subset {l' : List (Exchange × ExchangeAction)} (h : l.Sublist l') :
    opened l ⊆ opened l' :=
  List.cons_subset_cons _ (h.filterMap _).subset

/-- Whatever connection an exchange knows, its attempt has made it. -/
theorem mem_opened_of_knows {name : String} {permits : Nat} {refusal : Option SessionError}
    (h₀ : start name permits refusal = .ok e₀) (h : Past e₀ l e) {connection : ConnectionId}
    (k : e.Knows connection id) : (connection, id) ∈ opened l := by
  induction h with
  | started =>
    obtain ⟨rfl, rfl⟩ := knows_of_start h₀ k
    exact List.mem_cons_self
  | @step l e e' a h hs ih =>
    rcases knows_of_step k hs with k | rfl
    · exact opened_subset (List.sublist_cons_self _ l) (ih k)
    · exact List.mem_cons_of_mem _ List.mem_cons_self

/-- A call is forwarded to the connection of a session. -/
lemma knows_of_judges {text : Option String} {connection : ConnectionId} {procedure : String}
    (h : e.registry.Judges text (.forwarded connection procedure)) :
    ∃ d x, e.registry.table.get? d = some x ∧ e.Knows connection x.id := by
  cases h with
  | forwarded _ hx hl _ => exact ⟨_, _, hx, .session hx rfl hl rfl⟩

/-- A name that is given once is given with one value. -/
lemma snd_eq_of_nodup {α β : Type} {l : List (α × β)} (h : (l.map Prod.fst).Nodup) {a : α}
    {b b' : β} (hb : (a, b) ∈ l) (hb' : (a, b') ∈ l) : b = b' := by
  have hinj := List.inj_on_of_nodup_map h hb hb' rfl
  exact (Prod.mk.inj hinj).2

/-! ## After a loss -/

/-- What a removal comes to. The session `id` of the domain `d` has been removed in the step from
`s` to `m` because its connection was lost. `e` is any state since, and `l` all that has
happened. -/
structure Removed (e s m : Exchange) (l : List (Exchange × ExchangeAction)) (d : String)
    (id : SessionId) (link : Link) : Prop where
  /-- It was the session of the domain. -/
  session : ∃ address, (d, .connected id address link) ∈ s.registry.listing
  table : m.registry.table = s.registry.table.erase d
  /-- The removal hands over its registration for withdrawal, and nothing does so again. -/
  withdrawals : m.withdrawals = s.withdrawals ++ [link.registration]
  once : (e.withdrawals ++ e.provider.withdrawn).count link.registration = 1
  /-- The removal asks once for its domain to be forgotten. -/
  forgets : m.forgets = s.forgets ++ [d]
  /-- There is no session of this name any more. -/
  never : ∀ d' x, (d', x) ∈ e.registry.listing → x.id ≠ id
  /-- If each attempt makes a connection of its own, no call is forwarded to the old one. -/
  unrouted : ((opened l).map Prod.fst).Nodup → ∀ text procedure,
    ¬ e.registry.Judges text (.forwarded link.connection procedure)
  /-- When the registry hears of the domain again and finds an address, there is a session with
  another name: the one that it has begun since, or else one that it begins now. -/
  again : ∀ info rest address, e.queue = .discovered info :: rest → info.key = d →
    info.endpoint? = some address → ∃ f x, e.step .serve = some f ∧
      f.registry.table.get? d = some x ∧ x.id ≠ id ∧
      (e.registry.table.get? d = none → x = .connecting e.nextSession address ∧
        f.dials.get? e.nextSession = some { domain := d, address })

/-- What holds of lost connections in every state. `l` has happened since the start. -/
structure Cleared (e : Exchange) (l : List (Exchange × ExchangeAction)) : Prop where
  /-- As long as something keeps the queue open, the loss of a session's connection can be told to
  the registry, or is on its way there. -/
  told : e.isHeld = true → ∀ d id address link,
    (d, .connected id address link) ∈ e.registry.listing → link.connection ∈ e.lost →
    (e.step (.notice id)).isSome = true ∨ .lost d id ∈ e.queue
  /-- When the queue is empty and no watch has anything to tell, no session but the home session has
  a lost connection, unless the registry is about to stop. -/
  settled : e.queue = [] → (∀ id, e.step (.notice id) = none) →
    (∀ d x link, (d, x) ∈ e.registry.listing → x.isHome = false → x.link? = some link →
      link.connection ∉ e.lost) ∨ e.Due
  /-- When the registry hears of a loss, it removes the session for good. -/
  removed : ∀ since s before d id rest, l = since ++ (s, .serve) :: before →
    s.queue = .lost d id :: rest → ∃ m link, s.step .serve = some m ∧ e.Removed s m l d id link

/-- The registry hears of a domain: it has a session then, at the latest. -/
lemma exists_entry_of_discovered {info : DomainInfo} {rest : List Command}
    (hr : e.running = true) (hq : e.queue = .discovered info :: rest)
    (ha : info.endpoint? = some address) :
    ∃ f x, e.step .serve = some f ∧ f.running = true ∧
      f.registry.table.get? info.key = some x ∧
      (e.registry.table.get? info.key = some x ∨
        e.registry.table.get? info.key = none ∧ x = .connecting e.nextSession address ∧
          f.dials.get? e.nextSession = some { domain := info.key, address }) := by
  cases hget : e.registry.table.get? info.key with
  | none =>
    obtain ⟨f, hserve, hf, -, hdials, htable⟩ := begun_of_discovered hr hq hget ha
    refine ⟨f, _, hserve, hf, ?_, .inr ⟨rfl, rfl, ?_⟩⟩
    · rw [htable, Table.get?_insert, if_pos rfl]
    · rw [hdials, Table.get?_insert, if_pos rfl]
  | some x =>
    have hknown : e.registry.table.contains info.key = true := by
      rw [Table.contains, hget]
      rfl
    refine ⟨e.taken rest, x, ?_, hr, hget, .inl rfl⟩
    rw [serve_cons hr hq (by simp), Registry.react, Registry.discover, if_pos hknown]
    rfl

/-- What has become of a session whose loss the registry has heard of. -/
theorem removed_of_past {name : String} {permits : Nat} {refusal : Option SessionError}
    (h₀ : start name permits refusal = .ok e₀) (hr : e.running = true)
    {since before : List (Exchange × ExchangeAction)} {rest : List Command}
    (h : Past e₀ (since ++ (s, .serve) :: before) e) (hq : s.queue = .lost d id :: rest) :
    ∃ m link, s.step .serve = some m ∧
      e.Removed s m (since ++ (s, .serve) :: before) d id link := by
  obtain ⟨m, hbefore, hserve, hsince⟩ :
      ∃ m, Past e₀ before s ∧ s.step .serve = some m ∧ Past m since e := h.split
  have hm := hsince.reaches.running hr
  have hs := (transition_of_step hserve).running hm
  have t := tallied_of_reaches (tallied_of_start h₀) hbefore.reaches hs
  have a := accounted_of_reaches (accounted_of_start h₀) (tallied_of_start h₀) h.reaches hr
  obtain ⟨address, link, hget⟩ := t.joined_of_lost (hq ▸ List.mem_cons_self : .lost d id ∈ s.queue)
  obtain ⟨htable, hnext, hwithdrawals, hforgets⟩ : m.registry.table = s.registry.table.erase d ∧
      s.nextSession ≤ m.nextSession ∧ m.withdrawals = s.withdrawals ++ [link.registration] ∧
      m.forgets = s.forgets ++ [d] := by
    obtain rfl := Option.some.inj ((serve_ended hs hq hget).symm.trans hserve)
    exact ⟨rfl, Nat.le_succ _, rfl, rfl⟩
  -- the name of the session that is removed does not come back
  have hnever : ∀ {f : Exchange} {d' : String} {x : Entry}, m.Reaches f → f.running = true →
      f.registry.table.get? d' = some x → x.id ≠ id :=
    fun hf hrun hx => id_ne_of_removed t hget htable hnext hf hrun hx
  refine ⟨m, link, hserve, ⟨address, Table.mem_entries_iff.2 hget⟩, htable, hwithdrawals, ?_,
    hforgets, fun d' x hx => hnever hsince.reaches hr (Table.mem_entries_iff.1 hx),
    fun hopened text procedure hj => ?_, fun info rest' address' hq' hkey ha => ?_⟩
  · -- it has been handed over in this step, and nothing is handed over twice
    have hle := handovers_le_of_reaches hsince.reaches hr link.registration
    have hone := a.handovers_le_one link.registration
    simp only [handovers, hwithdrawals, List.count_append, List.count_singleton_self] at hle hone ⊢
    omega
  · -- the connection comes from the attempt of the session that is removed, and from no other
    obtain ⟨d', x, hx, k⟩ := knows_of_judges hj
    have hnew := mem_opened_of_knows h₀ h k
    have hold := mem_opened_of_knows h₀ hbefore (.session hget rfl rfl rfl)
    have hsub : before.Sublist (since ++ (s, .serve) :: before) :=
      (List.sublist_cons_self _ before).trans (List.sublist_append_right ..)
    exact hnever hsince.reaches hr hx (snd_eq_of_nodup hopened hnew (opened_subset hsub hold))
  · obtain ⟨f, x, hf, hrun, hx, hcases⟩ := exists_entry_of_discovered hr hq' ha
    rw [hkey] at hx hcases
    refine ⟨f, x, hf, hx, hnever (hsince.reaches.step _ hf) hrun hx, fun hnone => ?_⟩
    rcases hcases with hget' | ⟨-, hnew⟩
    · exact absurd (hnone.symm.trans hget') (by simp)
    · exact hnew

lemma guarded_of_start {name : String} {permits : Nat} {refusal : Option SessionError}
    (h : start name permits refusal = .ok e) : e.Guarded := by
  rw [eq_of_start h]
  exact fun _ _ _ _ hw => absurd hw (by simp)

/-- No dead session survives: in every run, a loss is told, and a session whose loss has been told
is gone for good. -/
theorem cleared_of_past {name : String} {permits : Nat} {refusal : Option SessionError}
    (h₀ : start name permits refusal = .ok e₀) (h : Past e₀ l e) (hr : e.running = true) :
    e.Cleared l := by
  have t := tallied_of_reaches (tallied_of_start h₀) h.reaches hr
  have g := guarded_of_reaches (guarded_of_start h₀) h.reaches hr
  refine ⟨fun hh d id address link hx hlost => ?_, fun hq hnone => ?_,
    fun since s before d id rest hl hq => ?_⟩
  · exact notice_or_reported t g hh (Table.mem_entries_iff.1 hx) hlost
  · cases hh : e.isHeld with
    | false => exact .inr ⟨hr, .inr ⟨hq, hh⟩⟩
    | true =>
      refine .inl fun d x link hx hhome hl hlost => ?_
      cases x with
      | home => exact absurd hhome (by simp [Entry.isHome])
      | connecting => exact absurd hl (by simp [Entry.link?])
      | connected id address link' =>
        obtain rfl := Option.some.inj hl
        -- somebody could tell the loss, or has told it
        rcases notice_or_reported t g hh (Table.mem_entries_iff.1 hx) hlost with hstep | hmem
        · rw [hnone id] at hstep
          exact absurd hstep (by simp)
        · rw [hq] at hmem
          exact absurd hmem List.not_mem_nil
  · subst hl
    exact removed_of_past h₀ hr h hq

/-- A connection is lost while the pattern of its domain is being provided. The session becomes
usable all the same, and its loss is told at once. -/
def mishap : List ExchangeAction :=
  [.discover ⟨"10.0.0.5", 9000, "alpha", "r1"⟩, .serve, .dial 1, .connect 1 (some 1), .lose 1,
    .provide 1 true, .conclude 1, .serve, .notice 1]

/-- The registry hears of the loss, and then of the domain again. -/
theorem cleared_of_mishap :
    let news : ExchangeAction := .discover ⟨"10.0.0.5", 9000, "alpha", "r1"⟩
    let s := alone.run mishap
    let m := s.run [.serve]
    let e := m.run [news]
    let l := [(m, news)] ++ (s, .serve) :: alone.trail mishap
    start "home" 4 none = .ok alone ∧ Past alone l e ∧ e.running = true ∧
      s.queue = [.lost "alpha" 1] ∧ ((opened l).map Prod.fst).Nodup ∧
      s.registry.route? "alpha" = some ⟨1, 2⟩ ∧ s.lost = [1] ∧ e.Cleared l := by
  intro news s m e l
  have hmishap : Past alone (alone.trail mishap) s := past_trail alone mishap
  have hserved : Past alone ((s, .serve) :: alone.trail mishap) m := hmishap.step rfl
  have hpast : Past alone l e := hserved.step rfl
  exact ⟨start_alone, hpast, by decide +kernel, by decide +kernel, by decide +kernel,
    by decide +kernel, by decide +kernel, cleared_of_past start_alone hpast (by decide +kernel)⟩

end Exchange
end Switchboard
