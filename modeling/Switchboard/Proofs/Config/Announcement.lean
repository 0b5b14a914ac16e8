import Switchboard.Proofs.Config.Startup
import Switchboard.Proofs.Route.Ownership
import Switchboard.Proofs.Station.Announcement

/-!
# Which domains are announced

The check of a configuration asks for a name that can be routed and sets no limit to it. A heartbeat
does have a limit, so that a domain with long names may start and not be announced.

* `size_withAddress` is how many bytes a heartbeat takes, and `size_le_of_names` which names leave
  room for every address.
* `delivered_of_cycle` is what a cycle of the announcer sends.
* `Config.Discoverable` is what follows for a configuration, and `discoverable_of_validate` says so.
-/

namespace Switchboard

/-! ## The size of a heartbeat -/

/-- An address in dotted decimal takes fifteen characters at most. -/
lemma Ipv4.length_write_le (ip : Ipv4) : ip.write.length ≤ 15 := by
  have hoctet : ∀ b : UInt8, (Nat.toDigits 10 b.toNat).length ≤ 3 := fun b =>
    (Nat.length_toDigits_le_iff (by decide) (by decide)).2 (Nat.lt_trans b.toNat_lt (by decide))
  have ha := hoctet ip.a
  have hb := hoctet ip.b
  have hc := hoctet ip.c
  have hd := hoctet ip.d
  simp only [Ipv4.write, List.length_append, List.length_cons]
  omega

/-- An address is written with digits and dots. -/
lemma Ipv4.isDigit_or_dot (ip : Ipv4) {c : Char} (h : c ∈ ip.write) :
    c.isDigit = true ∨ c = '.' := by
  simp only [Ipv4.write, List.mem_append, List.mem_cons] at h
  rcases h with h | h | h | h | h | h | h
  · exact .inl (Digits.isDigit_of_toDigits c h)
  · exact .inr h
  · exact .inl (Digits.isDigit_of_toDigits c h)
  · exact .inr h
  · exact .inl (Digits.isDigit_of_toDigits c h)
  · exact .inr h
  · exact .inl (Digits.isDigit_of_toDigits c h)

namespace Heartbeat

open Json (byteSize Input)

/-- How many bytes a string takes in a payload, with its quotes. -/
def spelledSize (s : String) : Nat := (Utf8.encode (Json.writeString s)).length

/-- A digit needs no escape. -/
lemma writtenSize_of_isDigit {c : Char} (h : c.isDigit = true) :
    Json.writtenSize (some c) = 1 := by
  have hrange := Char.isDigit_iff_toNat.1 h
  have hzero : ('0').toNat = 48 := rfl
  have hnine : ('9').toNat = 57 := rfl
  have hne : ∀ d : Char, d.toNat < 48 ∨ 57 < d.toNat → c ≠ d := by
    rintro d hd rfl
    omega
  have hplain : Json.writeChar c = [c] :=
    Json.writeChar_of_plain (hne _ (by decide)) (hne _ (by decide)) (by omega)
  rw [Json.writtenSize, hplain, Json.ofText_cons, Json.ofText_nil, Json.byteSize_cons,
    Json.byteSize_nil]
  exact Json.utf8Size_of_isDigit h

/-- An address stands in a payload as it is. -/
lemma spelledSize_render (ip : Ipv4) : spelledSize ip.render = ip.write.length + 2 := by
  have hone : ∀ n ∈ (ip.write.map some).map Json.writtenSize, n = 1 := by
    intro n hn
    simp only [List.map_map, List.mem_map, Function.comp_apply] at hn
    obtain ⟨c, hc, rfl⟩ := hn
    rcases ip.isDigit_or_dot hc with hdigit | rfl
    · exact writtenSize_of_isDigit hdigit
    · rfl
  rw [spelledSize, Utf8.length_encode, Json.byteSize_writeString, Ipv4.render,
    String.toList_ofList, List.eq_replicate_of_mem hone, List.sum_replicate_nat]
  simp

/-- What a heartbeat takes. -/
theorem size_withAddress (info : DomainInfo) (ip : Ipv4) :
    size (info.withAddress ip.render) = 8 + ip.write.length
      + (Nat.toDigits 10 info.port.toNat).length + spelledSize info.name
      + spelledSize info.realm := by
  have hport : byteSize (Input.ofText (Nat.toDigits 10 info.port.toNat))
      = (Nat.toDigits 10 info.port.toNat).length :=
    Json.byteSize_ofText_digits Digits.isDigit_of_toDigits
  have haddress := spelledSize_render ip
  have hbracket : Utf8.symbolSize (some '[') = 1 := rfl
  have hclose : Utf8.symbolSize (some ']') = 1 := rfl
  have hcomma : Utf8.symbolSize (some ',') = 1 := rfl
  simp only [spelledSize, Utf8.length_encode] at haddress ⊢
  simp only [size, compact, DomainInfo.withAddress, Utf8.length_encode, Json.ofText_cons,
    Json.ofText_append, Json.ofText_nil, Json.byteSize_cons, Json.byteSize_append,
    Json.byteSize_nil, hbracket, hclose, hcomma, hport, haddress]
  omega

/-- Names that leave room for the longest address and the longest port are announced everywhere. -/
theorem size_le_of_names (info : DomainInfo)
    (h : spelledSize info.name + spelledSize info.realm ≤ 484) (ip : Ipv4) :
    size (info.withAddress ip.render) ≤ maxSize := by
  have haddress := ip.length_write_le
  have hport : (Nat.toDigits 10 info.port.toNat).length ≤ 5 :=
    (Nat.length_toDigits_le_iff (by decide) (by decide)).2
      (Nat.lt_trans info.port.toNat_lt (by decide))
  have hmax : maxSize = 512 := rfl
  rw [size_withAddress]
  omega

/-- A heartbeat that fits is encoded as its bytes. -/
lemma encode_of_size_le {info : DomainInfo} (h : size info ≤ maxSize) :
    encode info = .ok (bytes info) := by
  rw [encode, length_bytes_eq_size, if_neg (Nat.not_lt.2 h)]

/-- A heartbeat that does not fit is refused with its size. -/
lemma encode_of_lt_size {info : DomainInfo} (h : maxSize < size info) :
    encode info = .error (.oversized (size info) maxSize) := by
  rw [encode, length_bytes_eq_size, if_pos h]

end Heartbeat

/-! ## The announcer -/

namespace Announcer

open Heartbeat (size maxSize bytes)

/-- The heartbeats that a cycle sends through a list of addresses: one for each address that leaves
room for it. -/
def heartbeats (template : DomainInfo) (addresses : List Ipv4) : List Transmission :=
  (addresses.filter fun ip => size (template.withAddress ip.render) ≤ maxSize).map fun ip =>
    ⟨ip, bytes (template.withAddress ip.render)⟩

/-- A transmission is made where the heartbeat fits with its address. -/
lemma transmission?_eq (a : Announcer) (ip : Ipv4) : a.transmission? ip =
    if size (a.template.withAddress ip.render) ≤ maxSize then
      some ⟨ip, bytes (a.template.withAddress ip.render)⟩
    else none := by
  unfold transmission?
  split
  · next datagram h =>
    obtain ⟨rfl, hsize⟩ := Heartbeat.of_encode h
    rw [Heartbeat.length_bytes_eq_size] at hsize
    rw [if_pos hsize]
  · next error h =>
    rw [if_neg]
    intro hsize
    rw [Heartbeat.encode_of_size_le hsize] at h
    exact absurd h (by simp)

/-- A cycle tries to send a heartbeat through every address that leaves room for it. -/
lemma attempted_of_cycle (a : Announcer) (e : Enumeration) (failing : List Ipv4) :
    (a.cycle e failing).1.attempted = heartbeats a.template e.addresses := by
  change e.addresses.filterMap a.transmission? = _
  unfold heartbeats
  induction e.addresses with
  | nil => rfl
  | cons ip rest ih =>
    rw [List.filterMap_cons, List.filter_cons, a.transmission?_eq]
    by_cases hsize : size (a.template.withAddress ip.render) ≤ maxSize
    · simp only [hsize, decide_true, if_true, List.map_cons, ih]
    · simp only [hsize, decide_false, if_false, Bool.false_eq_true, ih]

/-- It does so in every cycle, whatever was sent before. -/
theorem attempted_of_cycles (a : Announcer) (script : List (Enumeration × List Ipv4)) :
    (a.cycles script).map (·.1.attempted)
      = script.map fun p => heartbeats a.template p.1.addresses := by
  induction script generalizing a with
  | nil => rfl
  | cons p rest ih =>
    rw [cycles, List.map_cons, List.map_cons, ih]
    congr 1
    exact a.attempted_of_cycle p.1 p.2

/-- If there is room at every address, every address has its heartbeat. -/
lemma interfaces_of_heartbeats {template : DomainInfo}
    (h : ∀ ip : Ipv4, size (template.withAddress ip.render) ≤ maxSize) (addresses : List Ipv4) :
    (heartbeats template addresses).map (·.interface) = addresses := by
  have hall : addresses.filter (fun ip => size (template.withAddress ip.render) ≤ maxSize)
      = addresses := List.filter_eq_self.2 fun ip _ => decide_eq_true (h ip)
  rw [heartbeats, hall, List.map_map]
  exact List.map_id _

end Announcer

/-! ## A configuration that passes the check -/

namespace Config

open Heartbeat (size maxSize encode decode spelledSize)

/-- What the heartbeats of a configuration come to, which say the same as `template` but for the
address. -/
structure Discoverable (c : Config) (template : DomainInfo) : Prop where
  announcement : c.announcement? = .ok template
  /-- There is a cycle at the start and after every period. -/
  ticks : Monitor.canTick c.discovery.heartbeatPeriodMs.toNat = true
  /-- A heartbeat that leaves room for its address is written, and read as what it says. -/
  fits : ∀ ip : Ipv4, size (template.withAddress ip.render) ≤ maxSize →
    ∃ datagram, encode (template.withAddress ip.render) = .ok datagram ∧
      decode datagram = .ok (template.withAddress ip.render)
  /-- One that does not is refused. -/
  oversized : ∀ ip : Ipv4, maxSize < size (template.withAddress ip.render) →
    encode (template.withAddress ip.render)
      = .error (.oversized (size (template.withAddress ip.render)) maxSize)
  /-- In every cycle, a heartbeat is sent through each address with which it fits. -/
  cycles : ∀ (a : Announcer) script, a.template = template →
    (a.cycles script).map (·.1.attempted)
      = script.map fun p => Announcer.heartbeats template p.1.addresses
  /-- With names that are not too long there is room for every address: the domain is announced
  through each of them in every cycle. -/
  everywhere : spelledSize c.domain.name + spelledSize c.domain.realm ≤ 484 →
    ∀ addresses, (Announcer.heartbeats template addresses).map (·.interface) = addresses

/-- A configuration that passes the check announces its domain through every address with which its
heartbeat fits. -/
theorem discoverable_of_validate {c : Config} (h : c.validate = .ok ()) :
    ∃ port, c.advertisedPort? = .ok port ∧
      c.Discoverable (.template c.domain.name c.domain.realm port) := by
  have v := validate_eq_ok_iff.1 h
  obtain ⟨port, hport⟩ := v.advertisedPort?
  refine ⟨port, hport, ?_, decide_eq_true v.heartbeats, fun ip hsize => ?_,
    fun ip hsize => Heartbeat.encode_of_lt_size hsize, ?_, fun hnames addresses => ?_⟩
  · rw [announcement?, hport]
    rfl
  · refine ⟨_, Heartbeat.encode_of_size_le hsize, ?_⟩
    rw [← Heartbeat.length_bytes_eq_size] at hsize
    have hcheck : ((DomainInfo.template c.domain.name c.domain.realm port).withAddress
        ip.render).check = .ok () := v.name
    rw [Heartbeat.decode_bytes_eq hsize, Heartbeat.checkUsable_of_check hcheck,
      DomainInfo.endpoint?_withAddress]
    rfl
  · intro a script ha
    rw [← ha]
    exact a.attempted_of_cycles script
  · have hroom := Heartbeat.size_le_of_names
      (.template c.domain.name c.domain.realm port) hnames
    exact Announcer.interfaces_of_heartbeats hroom addresses

/-- A configuration with another name. -/
def renamed (c : Config) (name : String) : Config := { c with domain := { c.domain with name } }

/-- The check sets no limit to a name. -/
lemma Valid.renamed {c : Config} (v : c.Valid) {name : String}
    (h : checkDomainName name = .ok ()) : (c.renamed name).Valid :=
  ⟨h, v.realm, v.router, v.group, v.heartbeats, v.polls, v.buffer, v.calls⟩

lemma announcement?_renamed {c : Config} {port : UInt16} (h : c.advertisedPort? = .ok port)
    (name : String) :
    (c.renamed name).announcement? = .ok (.template name c.domain.realm port) := by
  have hport : (c.renamed name).advertisedPort? = .ok port := h
  rw [announcement?, hport]
  rfl

/-- The default settings with a name of so many letters. -/
def named (n : Nat) : Config := Config.renamed {} (String.ofList (List.replicate n 'd'))

/-- What the default settings announce with such a name. -/
def drawn (n : Nat) : DomainInfo := ⟨"", 8000, String.ofList (List.replicate n 'd'), "default"⟩

/-- Names of any length but zero are valid. -/
lemma validate_named {n : Nat} (h : 0 < n) : (named n).validate = .ok () := by
  have hdefault : ({} : Config).Valid := validate_eq_ok_iff.1 (by rfl)
  refine validate_eq_ok_iff.2 (hdefault.renamed ?_)
  rw [checkDomainName_eq_ok_iff, ne_eq, ← String.toList_eq_nil_iff, String.toList_ofList]
  refine ⟨?_, fun hmem => ?_⟩
  · rw [List.replicate_eq_nil_iff]
    exact Nat.ne_of_gt h
  · exact absurd (List.eq_of_mem_replicate hmem) (by decide)

/-- The size of a heartbeat whose name has `n` characters. -/
lemma size_drawn (n : Nat) (ip : Ipv4) :
    size ((drawn n).withAddress ip.render) = 23 + n + ip.write.length := by
  have hletter : Json.writtenSize (some 'd') = 1 := rfl
  have hname : spelledSize (drawn n).name = n + 2 := by
    rw [spelledSize, Utf8.length_encode, Json.byteSize_writeString, drawn, String.toList_ofList]
    simp [hletter]
  have hrealm : spelledSize (drawn n).realm = 9 := by
    change spelledSize "default" = 9
    decide +kernel
  have hport : (Nat.toDigits 10 (drawn n).port.toNat).length = 4 := by
    change (Nat.toDigits 10 (8000 : UInt16).toNat).length = 4
    decide +kernel
  rw [Heartbeat.size_withAddress, hname, hrealm, hport]
  omega

/-- With a name of 481 letters there is room for one address and not for another, which takes a
character more. -/
theorem discoverable_of_named :
    let ips : List Ipv4 := [⟨10, 0, 0, 7⟩, ⟨10, 0, 0, 10⟩]
    (named 481).validate = .ok () ∧ (named 481).announcement? = .ok (drawn 481) ∧
      (∃ port, (named 481).advertisedPort? = .ok port ∧
        (named 481).Discoverable (.template (named 481).domain.name "default" port)) ∧
      (Announcer.heartbeats (drawn 481) ips).map (·.interface) = [⟨10, 0, 0, 7⟩] := by
  have hport : ({} : Config).advertisedPort? = .ok 8000 := by rfl
  refine ⟨validate_named (by decide), announcement?_renamed hport _,
    discoverable_of_validate (validate_named (by decide)), ?_⟩
  simp only [Announcer.heartbeats, size_drawn, List.map_map]
  decide +kernel

/-- The check lets a name of 500 letters pass, and a heartbeat with it cannot be written at all. -/
theorem undiscoverable_of_named :
    (named 500).validate = .ok () ∧ (named 500).announcement? = .ok (drawn 500) ∧
      encode ((drawn 500).withAddress (Ipv4.render ⟨10, 0, 0, 5⟩)) = .error (.oversized 531 512) ∧
      ∀ ip : Ipv4, ∃ n, encode ((drawn 500).withAddress ip.render) = .error (.oversized n 512) := by
  have hport : ({} : Config).advertisedPort? = .ok 8000 := by rfl
  have hsize := size_drawn 500
  have hlarge : ∀ ip : Ipv4, maxSize < size ((drawn 500).withAddress ip.render) := fun ip => by
    have hmax : maxSize = 512 := rfl
    rw [hsize]
    omega
  refine ⟨validate_named (by decide), announcement?_renamed hport _, ?_,
    fun ip => ⟨_, Heartbeat.encode_of_lt_size (hlarge ip)⟩⟩
  have hlength : (Ipv4.write ⟨10, 0, 0, 5⟩).length = 8 := by decide +kernel
  rw [Heartbeat.encode_of_lt_size (hlarge _), hsize, hlength]
  rfl

end Config
end Switchboard
