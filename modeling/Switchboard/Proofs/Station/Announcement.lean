import Switchboard.Discovery.Announcer
import Switchboard.Discovery.Listener
import Switchboard.Proofs.Domain.Heartbeat
import Switchboard.Proofs.Exchange.Attempts
import Switchboard.Proofs.Net.Literals

/-!
# From a heartbeat to a session

The announcer writes what the listener reads, and the registry connects to where the heartbeat has
left. The address is written and read as text, the datagram is bounded on both sides, and the domain
is told by its name: all of them have to agree, or a domain announces itself and is never reached.

* `Announcer.announced` is what a heartbeat says, and `of_mem_attempted` says that this is what is
  sent.
* `Tracker.receive_of_decode` is what becomes of it at a listener.
* `joining_of_heartbeat` goes all the way.
-/

namespace Switchboard

/-! ## Addresses as text -/

/-- An address is read from its own text. -/
lemma Ip.parse?_render (ip : Ipv4) : Ip.parse? ip.render = some (.v4 ip) := by
  have hread : Ipv4.read ip.write = some (ip, []) := by
    have h := Ipv4.read_write ip (fun c (hc : c ∈ [].head?) => absurd hc (by simp))
    rwa [List.append_nil] at h
  simp only [Ip.parse?, Ip.read, Ipv4.render, String.toList_ofList, hread]

/-- The endpoint of a domain has the address that it was given. -/
lemma DomainInfo.endpoint?_withAddress (info : DomainInfo) (ip : Ipv4) :
    (info.withAddress ip.render).endpoint? = some (.v4 ip info.port) := by
  change (Ip.parse? ip.render).map _ = _
  rw [Ip.parse?_render]
  rfl

/-! ## The announcer -/

namespace Announcer

/-- What a heartbeat of the announcer says. -/
def announced (a : Announcer) (x : Transmission) : DomainInfo :=
  a.template.withAddress x.interface.render

variable {a : Announcer} {e : Enumeration} {failing : List Ipv4} {x : Transmission}

/-- A heartbeat names the interface it was sent from and the announcer's port. -/
lemma endpoint?_announced (a : Announcer) (x : Transmission) :
    (a.announced x).endpoint? = some (.v4 x.interface a.template.port) :=
  a.template.endpoint?_withAddress x.interface

/-- What a cycle tries to send leaves through a local address and says so. -/
theorem of_mem_attempted (h : x ∈ (a.cycle e failing).1.attempted) :
    x.interface ∈ e.addresses ∧ x.datagram = Heartbeat.bytes (a.announced x) ∧
      x.datagram.length ≤ Heartbeat.maxSize := by
  obtain ⟨interface, hmem, hx⟩ := List.mem_filterMap.1 h
  unfold transmission? at hx
  split at hx
  · next datagram hencode =>
    obtain rfl := Option.some.inj hx
    obtain ⟨rfl, hsize⟩ := Heartbeat.of_encode hencode
    exact ⟨hmem, rfl, hsize⟩
  · exact absurd hx (by simp)

/-- What has been sent was tried. -/
lemma mem_attempted_of_delivered (h : x ∈ (a.cycle e failing).1.delivered) :
    x ∈ (a.cycle e failing).1.attempted :=
  (List.mem_filter.1 h).1

/-- A heartbeat of a domain whose name is one is read as what it says. -/
lemma decode_of_attempted (ha : checkDomainName a.template.name = .ok ())
    (h : x ∈ (a.cycle e failing).1.attempted) :
    Heartbeat.decode x.datagram = .ok (a.announced x) := by
  obtain ⟨-, hdatagram, hsize⟩ := of_mem_attempted h
  rw [hdatagram] at hsize ⊢
  apply Heartbeat.decode_bytes hsize
  have hcheck : (a.announced x).check = .ok () := ha
  rw [Heartbeat.checkUsable_of_check hcheck, endpoint?_announced]
  rfl

end Announcer

/-! ## The listener -/

/-- A datagram that is not too long is stored, and is an event if its domain was not known. -/
theorem Tracker.receive_of_decode (t : Tracker) {datagram : List UInt8} {info : DomainInfo}
    {limit : Nat} (hlimit : datagram.length ≤ limit) (h : Heartbeat.decode datagram = .ok info) :
    t.receive datagram limit = (.ok (if t.knows info.name then none else some info),
      ⟨t.known.insert info.name info⟩) := by
  rw [Tracker.receive, if_neg (Nat.not_lt.2 hlimit), h]
  rfl

/-! ## The registry -/

namespace Exchange

/-- An event that is followed joins the queue. -/
lemma exists_passed {e : Exchange} (hr : e.running = true) (hf : e.following = true)
    (hw : e.followerWait = 0) (info : DomainInfo) :
    ∃ e', e.step (.event info) = some e' ∧ e'.queue = e.queue ++ [.discovered info] := by
  simp only [step, event, hf, hw, send, hr]
  exact ⟨_, rfl, rfl⟩

/-- A session that has just begun has its attempt, and no other. -/
lemma Tallied.attempts_of_dial {e : Exchange} (t : e.Tallied) {domain : String} {id : SessionId}
    {d : Dial} (hd : e.dials.get? id = some d) (hdomain : d.domain = domain) (i : SessionId) :
    e.attempts domain i = (id = i : Bool).toNat := by
  obtain ⟨address, hget⟩ := t.connecting_of_dial hd
  rw [hdomain] at hget
  have hle := (t.bounds_of_connecting hget i).1
  by_cases hi : id = i
  · have hpos : 0 < e.dials.count fun j x => j = i && x.domain = domain :=
      Table.count_pos_iff.2 ⟨id, d, hd, by simp [hi, hdomain]⟩
    rw [decide_eq_true hi, Bool.toNat_true] at hle ⊢
    unfold attempts at hle ⊢
    omega
  · rw [decide_eq_false hi, Bool.toNat_false] at hle ⊢
    omega

/-- What the registry begins when it hears of a domain without a session: one attempt at the
domain's address, in an exchange that has been running. -/
structure Begins (e : Exchange) (domain : String) (address : Endpoint) (e' : Exchange) : Prop where
  running : e'.running = true
  /-- No other attempt gives way to it. -/
  fresh : e.dials.get? e.nextSession = none
  dials : e'.dials = e.dials.insert e.nextSession { domain, address }
  entry : e'.registry.table.get? domain = some (.connecting e.nextSession address)
  single : ∀ id, e'.attempts domain id = (e.nextSession = id : Bool).toNat
  joining : e'.Joining e.nextSession domain address
  /-- It can be successful, whatever connection it makes. -/
  success : e'.isHeld = true → ∀ connection, ∃ f, e'.Reaches f ∧ f.running = true ∧
    f.provider.provided
      = e'.provider.provided.insert e'.provider.next (DomainInfo.routePattern domain) ∧
    f.queue = e'.queue ++ [.attempted domain e.nextSession (some ⟨connection, e'.provider.next⟩)]

/-- A domain without a session is heard. -/
lemma begins_of_discovered {name : String} {permits : Nat} {refusal : Option SessionError}
    {e₀ e : Exchange} (h₀ : start name permits refusal = .ok e₀) (h : e₀.Reaches e)
    (hr : e.running = true) {info : DomainInfo} {address : Endpoint} {rest : List Command}
    (hq : e.queue = .discovered info :: rest) (hnone : e.registry.table.get? info.key = none)
    (ha : info.endpoint? = some address) :
    ∃ e', e.step .serve = some e' ∧ e.Begins info.key address e' := by
  have t := tallied_of_reaches (tallied_of_start h₀) h hr
  obtain ⟨e', hserve, hr', hnext, hdials, htable⟩ := begun_of_discovered hr hq hnone ha
  have hreaches := h.step _ hserve
  have t' := tallied_of_reaches (tallied_of_start h₀) hreaches hr'
  have a' := accounted_of_reaches (accounted_of_start h₀) (tallied_of_start h₀) hreaches hr'
  have hdial : e'.dials.get? e.nextSession = some { domain := info.key, address } := by
    rw [hdials, Table.get?_insert, if_pos rfl]
  refine ⟨e', hserve, hr', t.dials_fresh, hdials, ?_, t'.attempts_of_dial hdial rfl, ?_, ?_⟩
  · rw [htable, Table.get?_insert, if_pos rfl]
  · exact joining_of_pursued (t.pursued_of_begun hnext hdials htable) t' a'
  · intro hheld connection
    exact exists_success hr' hheld hdial connection

end Exchange

/-! ## All the way -/

/-- What a cycle tries to send through an interface is read by every listener whose buffer is large
enough as the announcer's domain at that interface. It is an event exactly if the listener does not
know the domain. The event reaches the registry, which begins one attempt if it has no session of
the domain, at that interface and the announced port; if the attempt is successful it provides the
domain's pattern, and the domain becomes usable. -/
theorem Announcer.joining_of_heartbeat {name : String} {permits : Nat}
    {refusal : Option SessionError} {e₀ : Exchange}
    (h₀ : Exchange.start name permits refusal = .ok e₀) {a : Announcer}
    (ha : checkDomainName a.template.name = .ok ()) {enumeration : Enumeration}
    {failing : List Ipv4} {x : Transmission} (hx : x ∈ (a.cycle enumeration failing).1.attempted)
    {buffer : Nat} (hbuffer : Heartbeat.maxSize ≤ buffer) :
    x.interface ∈ enumeration.addresses ∧
    Heartbeat.decode x.datagram = .ok (a.announced x) ∧
    Listener.truncate buffer x.datagram = x.datagram ∧
    (∀ t : Tracker, t.receive x.datagram (Listener.limit buffer) =
      (.ok (if t.knows a.template.name then none else some (a.announced x)),
        ⟨t.known.insert a.template.name (a.announced x)⟩)) ∧
    (∀ e : Exchange, e.running = true → e.following = true → e.followerWait = 0 →
      ∃ e', e.step (.event (a.announced x)) = some e' ∧
        e'.queue = e.queue ++ [.discovered (a.announced x)]) ∧
    ∀ e rest, e₀.Reaches e → e.running = true → e.queue = .discovered (a.announced x) :: rest →
      e.registry.table.get? a.template.name = none →
      (e.registry.react e.nextSession (.discovered (a.announced x))).2 =
        [.connect a.template.name e.nextSession (.v4 x.interface a.template.port)] ∧
      ∃ e', e.step .serve = some e' ∧
        e.Begins a.template.name (.v4 x.interface a.template.port) e' := by
  obtain ⟨hinterface, -, hsize⟩ := of_mem_attempted hx
  -- the buffer is large enough, so nothing is cut off
  have hlimit : Listener.limit buffer = Heartbeat.maxSize := Nat.min_eq_right hbuffer
  have hdecode := decode_of_attempted ha hx
  have hendpoint := endpoint?_announced a x
  refine ⟨hinterface, hdecode, ?_, ?_, ?_, ?_⟩
  · rw [Listener.truncate, hlimit]
    exact List.take_of_length_le (by omega)
  · intro t
    rw [hlimit]
    exact t.receive_of_decode hsize hdecode
  · intro e hr hf hw
    exact Exchange.exists_passed hr hf hw _
  · intro e rest he hr hq hnone
    have hnone' : e.registry.table.get? (a.announced x).key = none := hnone
    have hreact := Exchange.discover_of_none hnone' hendpoint e.nextSession
    have hbegins := Exchange.begins_of_discovered h₀ he hr hq hnone' hendpoint
    exact ⟨congrArg Prod.snd hreact, hbegins⟩

namespace Announcer

/-- An announcer of a domain whose name and realm need every kind of escape. -/
def herald : Announcer := ⟨.template "\"a\\\x07\n\x7fé€😀" "/\t" 65535, 0⟩

/-- Its heartbeat through one of two interfaces. -/
def heralded : Transmission :=
  ⟨⟨192, 168, 1, 20⟩, Heartbeat.bytes (herald.template.withAddress "192.168.1.20")⟩

/-- The heartbeat is sent, is news to a listener that knows no domain, and begins an attempt. -/
theorem joining_of_heralded :
    let e := Exchange.alone.run [.discover (herald.announced heralded)]
    heralded ∈
      (herald.cycle (some [⟨192, 168, 1, 20⟩, ⟨10, 0, 0, 7⟩]) [⟨10, 0, 0, 7⟩]).1.delivered ∧
    (({} : Tracker).receive heralded.datagram (Listener.limit 1024)).1
      = .ok (some (herald.announced heralded)) ∧
    ∃ e', e.step .serve = some e' ∧
      e.Begins herald.template.name (.v4 ⟨192, 168, 1, 20⟩ 65535) e' := by
  have hdelivered : heralded ∈
      (herald.cycle (some [⟨192, 168, 1, 20⟩, ⟨10, 0, 0, 7⟩]) [⟨10, 0, 0, 7⟩]).1.delivered := by
    decide +kernel
  have hname : checkDomainName herald.template.name = .ok () := by decide +kernel
  obtain ⟨-, -, -, hreceive, -, hbegins⟩ :=
    joining_of_heartbeat Exchange.start_alone hname (mem_attempted_of_delivered hdelivered)
      (show Heartbeat.maxSize ≤ 1024 by decide)
  refine ⟨hdelivered, ?_, ?_⟩
  · rw [hreceive]
    rfl
  · refine (hbegins _ [] (Exchange.reaches_run ..) ?_ ?_ ?_).2
    · rfl
    · rfl
    · decide +kernel

end Announcer
end Switchboard
