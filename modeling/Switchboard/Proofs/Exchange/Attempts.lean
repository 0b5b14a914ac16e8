import Switchboard.Proofs.Exchange.Registrations

/-!
# The way of an attempt

An attempt that the registry has begun is made at the address that was announced, for the domain
that was announced, whatever happens besides. When its connection is there it has the domain's
pattern provided; when it tells of its success the domain becomes usable.

* `Exchange.Pursued` says what an attempt is for. `Pursued.transition` keeps it.
* `begun_of_discovered` is the beginning: one attempt for a domain without a session.
* `Exchange.Joining` is all that a successful attempt does, and `joining_of_pursued` says that it
  does so in every run.
-/

namespace Switchboard
namespace Exchange

/-- Whatever goes by the name of an attempt is about one domain at one address. -/
structure Pursued (e : Exchange) (id : SessionId) (domain : String) (address : Endpoint) :
    Prop where
  lt : id < e.nextSession
  dial : ∀ d, e.dials.get? id = some d → d.domain = domain ∧ d.address = address
  entry : ∀ n x, e.registry.table.get? n = some x → x.id = id →
    n = domain ∧ x.address? = some address

variable {e e' : Exchange} {id : SessionId} {domain : String} {address : Endpoint}

namespace Pursued

variable (p : e.Pursued id domain address)
include p

/-- The tasks and the sessions of this name are among those that were there. -/
theorem mono (hn : e.nextSession ≤ e'.nextSession)
    (hd : ∀ d, e'.dials.get? id = some d → e.dials.get? id = some d)
    (ht : ∀ n x, e'.registry.table.get? n = some x → e.registry.table.get? n = some x) :
    e'.Pursued id domain address where
  lt := Nat.lt_of_lt_of_le p.lt hn
  dial d h := p.dial d (hd d h)
  entry n x h := p.entry n x (ht n x h)

/-- An answer to a command does not end the pursuit. -/
lemma served {c : Command} {rest : List Command} (hs : e.Served rest c e') :
    e'.Pursued id domain address := by
  have hnext : e.nextSession ≤ e.nextSession + 1 := Nat.le_succ _
  cases hs with
  | known | unusable | discarded | ignored | refused | forwarded | listed =>
    exact p.mono hnext (fun d h => h) fun n x h => h
  | failed | broken =>
    exact p.mono hnext (fun d h => Table.get?_of_get?_erase h) fun n x h =>
      Table.get?_of_get?_erase h
  | ended => exact p.mono hnext (fun d h => h) fun n x h => Table.get?_of_get?_erase h
  | begun =>
    -- the new attempt goes by a name that has not been given out
    have hne : e.nextSession ≠ id := Nat.ne_of_gt p.lt
    refine ⟨Nat.lt_succ_of_lt p.lt, fun d h => ?_, fun n x h hid => ?_⟩
    · obtain ⟨heq, -⟩ | h := Table.get?_of_get?_insert h
      · exact absurd heq.symm hne
      · exact p.dial d h
    · obtain ⟨-, rfl⟩ | h := Table.get?_of_get?_insert h
      · exact absurd hid hne
      · exact p.entry n x h hid
  | joined hget =>
    refine ⟨Nat.lt_succ_of_lt p.lt, p.dial, fun n x h hid => ?_⟩
    obtain ⟨rfl, rfl⟩ | h := Table.get?_of_get?_insert h
    · have hmade := p.entry n _ hget hid
      exact hmade
    · exact p.entry n x h hid

/-- The pursuit goes on while the attempt gets further. -/
lemma advanced {i : SessionId} {stage : DialStage} :
    (e.advance i stage).Pursued id domain address := by
  refine ⟨p.lt, fun d h => ?_, p.entry⟩
  change (e.dials.modify i _).get? id = _ at h
  rw [Table.get?_modify] at h
  split at h
  · next hid =>
    obtain ⟨d₀, hd₀, rfl⟩ := Option.map_eq_some_iff.1 h
    exact p.dial d₀ (hid ▸ hd₀)
  · exact p.dial d h

/-- What an attempt is for does not change. -/
theorem transition {a : ExchangeAction} (h : e.Transition a e') (hr : e'.running = true) :
    e'.Pursued id domain address := by
  have hle : e.nextSession ≤ e.nextSession := Nat.le_refl _
  cases h with
  | aside h =>
    apply p.mono (Nat.le_of_eq h.nextSession.symm)
    · intro d hd
      rwa [h.dials] at hd
    · intro n x hx
      rwa [h.table] at hx
  | served _ hs => exact p.served hs
  | stopped h => exact absurd hr (by simp [h])
  | advanced => exact p.advanced
  | @provided _ name =>
    have hp : Pursued { e with provider := (e.provider.provide (DomainInfo.routePattern name)).2 }
        id domain address := p.mono hle (fun d h => h) fun n x h => h
    exact hp.advanced
  | concluded | unheard =>
    exact p.mono hle (fun d h => Table.get?_of_get?_erase h) fun n x h => h
  | noticed | unnoticed | withdrew => exact p.mono hle (fun d h => h) fun n x h => h

/-- Whatever happens, the pursuit goes on while the registry runs. -/
lemma reaches (h : e.Reaches e') (hr : e'.running = true) : e'.Pursued id domain address :=
  h.invariant (P := (Pursued · id domain address)) hr p fun _ _ _ _ _ hs hrun pm =>
    pm.transition (transition_of_step hs) hrun

end Pursued

/-! ## The beginning -/

/-- A new domain that can be reached is given one attempt. -/
theorem discover_of_none {r : Registry} {info : DomainInfo} (hnone : r.table.get? info.key = none)
    (ha : info.endpoint? = some address) (fresh : SessionId) :
    r.react fresh (.discovered info) =
      ({ r with table := r.table.insert info.key (.connecting fresh address) },
        [.connect info.key fresh address]) := by
  have hnew : r.table.contains info.key = false := by rw [Table.contains, hnone]; rfl
  simp only [Registry.react, Registry.discover, hnew, ha]
  rfl

/-- The registry takes the discovery of a new domain: one attempt begins. -/
theorem begun_of_discovered {info : DomainInfo} {rest : List Command} (hr : e.running = true)
    (hq : e.queue = .discovered info :: rest) (hnone : e.registry.table.get? info.key = none)
    (ha : info.endpoint? = some address) :
    ∃ e', e.step .serve = some e' ∧ e'.running = true ∧ e'.nextSession = e.nextSession + 1 ∧
      e'.dials = e.dials.insert e.nextSession { domain := info.key, address } ∧
      e'.registry.table
        = e.registry.table.insert info.key (.connecting e.nextSession address) := by
  have hserve := serve_cons hr hq (by simp)
  rw [discover_of_none hnone ha] at hserve
  exact ⟨_, hserve, hr, rfl, rfl, rfl⟩

/-- What the new attempt is for. -/
theorem Tallied.pursued_of_begun (t : e.Tallied) (hn : e'.nextSession = e.nextSession + 1)
    (hd : e'.dials = e.dials.insert e.nextSession { domain, address })
    (ht : e'.registry.table = e.registry.table.insert domain (.connecting e.nextSession address)) :
    e'.Pursued e.nextSession domain address := by
  refine ⟨?_, fun d h => ?_, fun n x h hid => ?_⟩
  · rw [hn]
    exact Nat.lt_succ_self _
  · rw [hd] at h
    obtain ⟨-, rfl⟩ | h := Table.get?_of_get?_insert h
    · exact ⟨rfl, rfl⟩
    · exact absurd (t.dials_fresh.symm.trans h) (by simp)
  · rw [ht] at h
    obtain ⟨rfl, rfl⟩ | h := Table.get?_of_get?_insert h
    · exact ⟨rfl, rfl⟩
    · exact absurd hid (Nat.ne_of_lt (t.id_lt n x h))

/-! ## Success -/

/-- What an attempt comes to that is successful, in all that may become of an exchange. -/
structure Joining (e : Exchange) (id : SessionId) (domain : String) (address : Endpoint) :
    Prop where
  /-- It is made for the domain at the address, and nothing else goes by its name. -/
  made : ∀ f d, e.Reaches f → f.running = true → f.dials.get? id = some d →
    d.domain = domain ∧ d.address = address
  /-- When its connection is there, it can have the domain's pattern provided. -/
  provides : ∀ f name place connection, e.Reaches f → f.running = true →
    f.dials.get? id = some ⟨name, place, .providing connection⟩ →
    ∃ f', f.step (.provide id true) = some f' ∧
      f'.provider.provided
        = f.provider.provided.insert f.provider.next (DomainInfo.routePattern domain) ∧
      f'.dials.get? id
        = some ⟨domain, address, .finished (some ⟨connection, f.provider.next⟩)⟩
  /-- When the pattern is provided, it can tell of its success. -/
  tells : ∀ f name place link, e.Reaches f → f.running = true → f.isHeld = true →
    f.dials.get? id = some ⟨name, place, .finished (some link)⟩ →
    ∃ f', f.step (.conclude id) = some f' ∧
      f'.queue = f.queue ++ [.attempted domain id (some link)]
  /-- When the registry hears of it, the domain becomes usable at the address, and its pattern is
  provided under the registration that the session has. -/
  joins : ∀ f name link rest, e.Reaches f → f.running = true →
    f.queue = .attempted name id (some link) :: rest →
    ∃ f', f.step .serve = some f' ∧ f'.running = true ∧
      f'.registry.table.get? domain = some (.connected id address link) ∧
      f'.provider.provided.get? link.registration = some (DomainInfo.routePattern domain)

section success

variable {link : Link}

/-- An attempt that has got further is at its new stage, with the address it had before. -/
lemma get?_advance {d : Dial} (hd : e.dials.get? id = some d) (stage : DialStage) :
    (e.advance id stage).dials.get? id = some { d with stage } := by
  change (e.dials.modify id _).get? id = _
  rw [Table.get?_modify, if_pos rfl, hd]
  rfl

/-- The home connection provides the pattern of an attempt that has its connection. -/
lemma exists_provided {connection : ConnectionId}
    (hd : e.dials.get? id = some ⟨domain, address, .providing connection⟩) :
    ∃ f, e.step (.provide id true) = some f ∧ f.running = e.running ∧ f.isHeld = e.isHeld ∧
      f.queue = e.queue ∧
      f.provider.provided
        = e.provider.provided.insert e.provider.next (DomainInfo.routePattern domain) ∧
      f.dials.get? id
        = some ⟨domain, address, .finished (some ⟨connection, e.provider.next⟩)⟩ := by
  have hstep : e.step (.provide id true) = some
      ({ e with provider := (e.provider.provide (DomainInfo.routePattern domain)).2 }.advance id
        (.finished (some ⟨connection, e.provider.next⟩))) := by
    simp only [step, provide, hd]
    rfl
  refine ⟨_, hstep, rfl, rfl, rfl, rfl, ?_⟩
  have hfinished : (e.advance id (.finished (some ⟨connection, e.provider.next⟩))).dials.get? id
      = _ := get?_advance hd _
  exact hfinished

/-- While somebody holds the queue, a command for the registry is put at its end. -/
lemma tell_of_isHeld (c : Command) (hr : e.running = true) (hh : e.isHeld = true) :
    e.tell c = { e with queue := e.queue ++ [c] } := by
  rw [tell, if_pos hh, send, if_pos hr]
  rfl

/-- An attempt that has come to its end is over with its report, which is the last in the queue. -/
lemma step_conclude {outcome : Option Link} (hr : e.running = true) (hh : e.isHeld = true)
    (hd : e.dials.get? id = some ⟨domain, address, .finished outcome⟩) :
    e.step (.conclude id) = some
      { e with
        dials := e.dials.erase id
        queue := e.queue ++ [.attempted domain id outcome] } := by
  simp only [step, conclude, hd]
  exact congrArg some (tell_of_isHeld _ hr hh)

/-- The registry hears that the attempt under way has been successful. -/
lemma serve_joined {rest : List Command} (hr : e.running = true)
    (hq : e.queue = .attempted domain id (some link) :: rest)
    (hget : e.registry.table.get? domain = some (.connecting id address)) :
    e.step .serve = some
      { (e.taken rest).withTable (e.registry.table.insert domain (.connected id address link)) with
        watches := e.watches.insert id { domain, connection := link.connection } } := by
  rw [serve_cons hr hq (by simp)]
  simp only [Registry.react, Registry.conclude, hget]
  rw [if_neg (by simp)]
  rfl

end success

/-- An attempt goes this way in every run. -/
theorem joining_of_pursued (p : e.Pursued id domain address) (t : e.Tallied) (a : e.Accounted) :
    e.Joining id domain address := by
  refine ⟨fun f d hf hr hd => ?_, fun f name place connection hf hr hd => ?_,
    fun f name place link hf hr hh hd => ?_, fun f name link rest hf hr hq => ?_⟩
  · exact (p.reaches hf hr).dial d hd
  · obtain ⟨rfl, rfl⟩ := (p.reaches hf hr).dial _ hd
    obtain ⟨f', hstep, -, -, -, hprovided, hfinished⟩ := exists_provided hd
    exact ⟨f', hstep, hprovided, hfinished⟩
  · obtain ⟨rfl, rfl⟩ := (p.reaches hf hr).dial _ hd
    exact ⟨_, step_conclude hr hh hd, rfl⟩
  · have htally := tallied_of_reaches t hf hr
    have haccount := accounted_of_reaches a t hf hr
    have hreport : .attempted name id (some link) ∈ f.queue := hq ▸ List.mem_cons_self
    -- the session is still being made, and it is the one that the attempt is for
    obtain ⟨place, hget⟩ := htally.connecting_of_attempted hreport
    obtain ⟨rfl, hplace⟩ := (p.reaches hf hr).entry name _ hget rfl
    obtain rfl : place = address := Option.some.inj hplace
    refine ⟨_, serve_joined hr hq hget, hr, ?_, haccount.pattern _ name (.report hreport rfl)⟩
    exact (Table.get?_insert ..).trans (if_pos rfl)

/-- The connection of an attempt that has just begun can be made. -/
lemma exists_providing (hd : e.dials.get? id = some { domain, address })
    (connection : ConnectionId) :
    ∃ m, e.Reaches m ∧ m.running = e.running ∧ m.isHeld = e.isHeld ∧ m.queue = e.queue ∧
      m.provider = e.provider ∧
      m.dials.get? id = some ⟨domain, address, .providing connection⟩ := by
  have hdialing := get?_advance hd .dialing
  have hproviding := get?_advance hdialing (.providing connection)
  have hdial : e.step (.dial id) = some (e.advance id .dialing) := by simp only [step, dial, hd]
  have hconnect : (e.advance id .dialing).step (.connect id (some connection)) =
      some ((e.advance id .dialing).advance id (.providing connection)) := by
    simp only [step, connect, hdialing]
    rfl
  exact ⟨_, .step _ (.step _ .refl hdial) hconnect, rfl, rfl, rfl, rfl, hproviding⟩

/-- An attempt that has just begun can be successful. -/
theorem exists_success (hr : e.running = true) (hh : e.isHeld = true)
    (hd : e.dials.get? id = some { domain, address }) (connection : ConnectionId) :
    ∃ f, e.Reaches f ∧ f.running = true ∧
      f.provider.provided
        = e.provider.provided.insert e.provider.next (DomainInfo.routePattern domain) ∧
      f.queue = e.queue ++ [.attempted domain id (some ⟨connection, e.provider.next⟩)] := by
  obtain ⟨m, hreaches, hrunning, hheld, hqueue, hprovider, hproviding⟩ :=
    exists_providing hd connection
  obtain ⟨n, hprovide, hrunning', hheld', hqueue', hprovided, hfinished⟩ :=
    exists_provided hproviding
  rw [hr] at hrunning
  rw [hh] at hheld
  rw [hprovider] at hprovided hfinished
  have hconclude := step_conclude (hrunning'.trans hrunning) (hheld'.trans hheld) hfinished
  refine ⟨_, .step _ (.step _ hreaches hprovide) hconclude, hrunning'.trans hrunning, hprovided, ?_⟩
  exact congrArg (· ++ _) (hqueue'.trans hqueue)

end Exchange
end Switchboard
