import Switchboard.Domain.Heartbeat
import Switchboard.Proofs.Json.Values
import Switchboard.Proofs.Schema.Scalars

/-!
# Heartbeats as they are written and read

A payload that has been written is read (`readPayload_write`), and no payload with the same content
is shorter (`size_of_readPayload`). So what is written for a domain is the shortest datagram that
announces it (`canonical_of_decode`), and reading it fails only where the domain itself is at fault
(`decoded_of_encode`).
-/

namespace Switchboard.Heartbeat

open Json (Input byteSize)

/-! ## Elements that have been written -/

section element

variable {α : Type} {read : Found → Except Mismatch α} {text : List Char} {found : Found} {x : α}
  {rest : Input}

/-- The first element is read without a comma. -/
lemma element_first (hstarts : Json.Starts text)
    (hfound : Json.glimpse (Input.ofText text ++ rest) = .ok (found, rest))
    (hread : read found = .ok x) :
    element 0 read (Input.ofText text ++ rest) = .ok (x, rest) := by
  have hnext := Json.nextElement_first hstarts rest
  change (Json.malformed (Json.nextElement true _) >>= _) = _
  rw [hnext]
  simp [Json.malformed, Json.mismatched, Json.scalar, bind, Except.bind, hfound, hread]

/-- The other elements are read after a comma. -/
lemma element_next (index : Nat) (hstarts : Json.Starts text)
    (hfound : Json.glimpse (Input.ofText text ++ rest) = .ok (found, rest))
    (hread : read found = .ok x) :
    element (index + 1) read (some ',' :: (Input.ofText text ++ rest)) = .ok (x, rest) := by
  have hnext := Json.nextElement_next hstarts rest
  change (Json.malformed (Json.nextElement false _) >>= _) = _
  rw [hnext]
  simp [Json.malformed, Json.mismatched, Json.scalar, bind, Except.bind, hfound, hread]

end element

lemma isWord_port (port : UInt16) : Json.Number.IsWord port.toNat := by
  have hlt : port.toNat < 65536 := port.toNat_lt
  exact ⟨by omega, by omega⟩

/-- A payload as text. -/
lemma write_toJson (info : DomainInfo) : Input.ofText (toJson info).write =
    some '[' :: (Input.ofText (Json.writeString info.address) ++
      some ',' :: (Input.ofText (Json.writeInt info.port.toNat) ++
        some ',' :: (Input.ofText (Json.writeString info.name) ++
          some ',' :: (Input.ofText (Json.writeString info.realm) ++ [some ']'])))) := by
  simp [toJson, Json.write, Json.writeItems, Json.commaSeparated, Json.writeNumber]

/-- A payload that has been written is read. -/
theorem readPayload_write (info : DomainInfo) :
    readPayload (Input.ofText (toJson info).write) = .ok info := by
  have hfound (input : Input) :
      Json.glimpse (some '[' :: input) = .ok (.sequence, some '[' :: input) := rfl
  have hstring (s : String) : (Found.str s).asString = .ok s := rfl
  have haddress (rest : Input) := element_first (Json.starts_writeString info.address)
    (Json.glimpse_writeString info.address rest) (hstring info.address)
  have hport (rest : Input) := element_next 0 (Json.starts_writeInt (isWord_port info.port))
    (Json.glimpse_writeInt (isWord_port info.port)
      (Json.stops_cons rest (s := some ',') (by decide)))
    (Found.asWord16_eq_ok_iff.2 rfl)
  have hname (rest : Input) := element_next 1 (Json.starts_writeString info.name)
    (Json.glimpse_writeString info.name rest) (hstring info.name)
  have hrealm (rest : Input) := element_next 2 (Json.starts_writeString info.realm)
    (Json.glimpse_writeString info.realm rest) (hstring info.realm)
  rw [write_toJson, readPayload, hfound]
  simp only [Json.malformed, bind, Except.bind, List.tail_cons]
  rw [haddress]
  simp only [hport, hname, hrealm]
  rfl

/-! ## Elements that have been read -/

section size

variable {input rest : Input}

/-- What a scalar was read from. -/
lemma found_of_scalar {α : Type} {read : Found → Except Mismatch α} {x : α}
    (h : Json.scalar read input = .ok (x, rest)) :
    ∃ found, Json.glimpse input = .ok (found, rest) ∧ read found = .ok x := by
  obtain ⟨⟨found, rest'⟩, hfound, h⟩ := Json.of_bind h
  obtain ⟨x', hread, h⟩ := Json.of_bind h
  obtain ⟨rfl, rfl⟩ := Prod.mk.inj (Except.ok.inj h)
  exact ⟨found, Json.of_malformed hfound, Json.of_mismatched hread⟩

lemma glimpse_of_asString {s : String}
    (h : Json.scalar Found.asString input = .ok (s, rest)) :
    Json.glimpse input = .ok (.str s, rest) := by
  obtain ⟨found, hfound, hread⟩ := found_of_scalar h
  rwa [Found.asString_eq_ok_iff.1 hread] at hfound

lemma glimpse_of_asWord16 {port : UInt16}
    (h : Json.scalar Found.asWord16 input = .ok (port, rest)) :
    Json.glimpse input = .ok (.int port.toNat, rest) := by
  obtain ⟨found, hfound, hread⟩ := found_of_scalar h
  rwa [Found.asWord16_eq_ok_iff.1 hread] at hfound

/-- A text is written with no more bytes than it was read from. -/
lemma size_of_asString {s : String} (h : Json.scalar Found.asString input = .ok (s, rest)) :
    byteSize (Input.ofText (Json.writeString s)) + byteSize rest ≤ byteSize input :=
  Json.size_of_found_str (glimpse_of_asString h)

/-- A port is written with no more bytes than it was read from. -/
lemma size_of_asWord16 {port : UInt16}
    (h : Json.scalar Found.asWord16 input = .ok (port, rest)) :
    byteSize (Input.ofText (Json.writeInt port.toNat)) + byteSize rest ≤ byteSize input :=
  Json.size_of_found_nat (glimpse_of_asWord16 h)

/-- An element behind another takes a comma in front of its value. -/
lemma size_of_element {α : Type} {read : Found → Except Mismatch α} {x : α} {index size : Nat}
    (hread : ∀ input rest, Json.scalar read input = .ok (x, rest) →
      size + byteSize rest ≤ byteSize input)
    (h : element index read input = .ok (x, rest)) :
    size + byteSize rest + (if index = 0 then 0 else 1) ≤ byteSize input := by
  obtain ⟨next, hnext, h⟩ := Json.of_bind h
  cases next with
  | none => exact absurd h (by simp)
  | some next =>
    have hcomma := Json.size_of_nextElement (Json.of_malformed hnext)
    have hvalue := hread next rest h
    simp only [beq_iff_eq] at hcomma
    omega

/-- No payload is shorter than the one that is written for the same domain. -/
theorem size_of_readPayload {info : DomainInfo} (h : readPayload input = .ok info) :
    byteSize (Input.ofText (toJson info).write) ≤ byteSize input := by
  obtain ⟨⟨found, start⟩, hfound, h⟩ := Json.of_bind h
  cases found with
  | sequence =>
    obtain ⟨⟨address, rest₁⟩, haddress, h⟩ := Json.of_bind h
    obtain ⟨⟨port, rest₂⟩, hport, h⟩ := Json.of_bind h
    obtain ⟨⟨name, rest₃⟩, hname, h⟩ := Json.of_bind h
    obtain ⟨⟨realm, rest₄⟩, hrealm, h⟩ := Json.of_bind h
    obtain ⟨rest₅, hend, h⟩ := Json.of_bind h
    obtain ⟨_, -, h⟩ := Json.of_bind h
    obtain rfl := Except.ok.inj h
    have hstart : byteSize start.tail + 1 ≤ byteSize input :=
      Json.size_of_found_sequence (Json.of_malformed hfound)
    have haddress := size_of_element (fun _ _ => size_of_asString) haddress
    have hport := size_of_element (fun _ _ => size_of_asWord16) hport
    have hname := size_of_element (fun _ _ => size_of_asString) hname
    have hrealm := size_of_element (fun _ _ => size_of_asString) hrealm
    have hend := Json.size_of_endList (Json.of_malformed hend)
    have hbracket : Utf8.symbolSize (some '[') = 1 := rfl
    have hclose : Utf8.symbolSize (some ']') = 1 := rfl
    have hcomma : Utf8.symbolSize (some ',') = 1 := rfl
    -- the sizes add up: two brackets, three commas and what each element takes
    rw [write_toJson]
    simp only [Json.byteSize_cons, Json.byteSize_append, Json.byteSize_nil, hbracket, hclose,
      hcomma]
    simp only [Nat.succ_ne_zero, if_true, if_false] at haddress hport hname hrealm
    omega
  | _ => exact absurd h (by simp)

end size

/-! ## Datagrams -/

/-- Of a written datagram within the limit only the domain itself is left to be checked. -/
theorem decode_bytes_eq {info : DomainInfo} (hsize : (bytes info).length ≤ maxSize) :
    decode (bytes info) = checkUsable info := by
  have hsymbols := Utf8.symbols_encode (toJson info).write []
  have hempty : Utf8.symbols [] = [] := rfl
  rw [List.append_nil, hempty, List.append_nil] at hsymbols
  have hread : readPayload (Utf8.symbols (Utf8.encode (toJson info).write)) = .ok info := by
    rw [hsymbols]
    exact readPayload_write info
  rw [bytes] at hsize ⊢
  rw [decode, if_neg (by omega), if_neg (fun h => h rfl), hread]

/-- A usable domain is decoded from its bytes, if they fit. -/
lemma decode_bytes {info : DomainInfo} (hsize : (bytes info).length ≤ maxSize)
    (husable : checkUsable info = .ok info) : decode (bytes info) = .ok info :=
  (decode_bytes_eq hsize).trans husable

/-- What is written is never too long. -/
theorem of_encode {info : DomainInfo} {datagram : List UInt8} (h : encode info = .ok datagram) :
    datagram = bytes info ∧ (bytes info).length ≤ maxSize := by
  simp only [encode] at h
  split at h
  · exact absurd h (by simp)
  · next hsize => exact ⟨(Except.ok.inj h).symm, Nat.not_lt.1 hsize⟩

/-- A heartbeat has a byte for the version and the bytes of its payload. -/
lemma length_bytes (info : DomainInfo) :
    (bytes info).length = byteSize (Input.ofText (toJson info).write) + 1 := by
  rw [bytes, List.length_cons, Utf8.length_encode]

/-- The check of a domain does not change it. -/
lemma eq_of_checkUsable {info checked : DomainInfo} (h : checkUsable info = .ok checked) :
    checked = info := by
  unfold checkUsable at h
  split at h
  · exact absurd h (by simp)
  split at h
  · exact (Except.ok.inj h).symm
  · exact absurd h (by simp)

/-- What an accepted datagram has passed. -/
theorem of_decode {datagram : List UInt8} {info : DomainInfo} (h : decode datagram = .ok info) :
    (bytes info).length ≤ datagram.length ∧ datagram.length ≤ maxSize ∧
      checkUsable info = .ok info := by
  unfold decode at h
  split at h
  · exact absurd h (by simp)
  next v payload =>
  split at h
  · exact absurd h (by simp)
  next hsize =>
  split at h
  · exact absurd h (by simp)
  split at h
  · exact absurd h (by simp)
  · next read hread =>
    obtain rfl := eq_of_checkUsable h
    have hle := size_of_readPayload hread
    rw [Utf8.byteSize_symbols] at hle
    refine ⟨?_, Nat.not_lt.1 hsize, h⟩
    rw [length_bytes, List.length_cons]
    omega

/-- What is written for the domain of an accepted datagram is accepted for the same domain, and no
datagram that is accepted for it is shorter. -/
theorem canonical_of_decode {datagram : List UInt8} {info : DomainInfo}
    (h : decode datagram = .ok info) : ∃ canonical, encode info = .ok canonical ∧
      decode canonical = .ok info ∧ canonical.length ≤ datagram.length ∧
      ∀ other, decode other = .ok info → canonical.length ≤ other.length := by
  obtain ⟨hle, hsize, husable⟩ := of_decode h
  have hfits : (bytes info).length ≤ maxSize := Nat.le_trans hle hsize
  refine ⟨bytes info, ?_, decode_bytes hfits husable, hle, fun other hother => (of_decode hother).1⟩
  rw [encode, if_neg (Nat.not_lt.2 hfits)]

/-- A domain whose texts need an escape and several bytes. -/
def announced : DomainInfo := ⟨"10.0.0.7", 8080, "😀a", "/\n"⟩

/-- A datagram that spells it at length, with blanks, escapes and a surrogate pair. -/
def verbose : List UInt8 :=
  version :: Utf8.encode
    " [ \"\\u0031\\u0030.0.0.7\",\t8080 , \"\\ud83d\\ude00\\u0061\" ,\"\\/\\u000a\" ]\n".toList

/-- A heartbeat with blanks and escapes is encoded again with less than half its bytes. -/
theorem canonical_of_verbose : decode verbose = .ok announced ∧ verbose.length = 68 ∧
    ∃ canonical, encode announced = .ok canonical ∧ decode canonical = .ok announced ∧
      canonical.length = 32 ∧ canonical.length ≤ verbose.length ∧
      ∀ other, decode other = .ok announced → canonical.length ≤ other.length := by
  have hread : (decode verbose).toOption = some announced := by decide +kernel
  have hdecode : decode verbose = .ok announced := Json.ok_of_toOption hread
  have hlength : (bytes announced).length = 32 := by decide +kernel
  obtain ⟨canonical, hencode, hagain, hle, hshortest⟩ := canonical_of_decode hdecode
  have hbytes : encode announced = .ok (bytes announced) := by
    rw [encode, if_neg (by rw [hlength]; decide)]
  obtain rfl := Except.ok.inj (hencode.symm.trans hbytes)
  exact ⟨hdecode, by decide +kernel, _, hencode, hagain, hlength, hle, hshortest⟩

/-! ## What comes of a domain that is announced -/

/-- The payload of a domain as text, without any blank. -/
def compact (info : DomainInfo) : List Char :=
  '[' :: (Json.writeString info.address ++ ',' :: (Nat.toDigits 10 info.port.toNat ++
    ',' :: (Json.writeString info.name ++ ',' :: (Json.writeString info.realm ++ [']']))))

/-- The bytes that the version and the payload of a domain take. -/
def size (info : DomainInfo) : Nat := 1 + (Utf8.encode (compact info)).length

/-- A heartbeat is its version and its compact text. -/
lemma bytes_eq_compact (info : DomainInfo) :
    bytes info = version :: Utf8.encode (compact info) := by
  have hport : Json.writeInt info.port.toNat = Nat.toDigits 10 info.port.toNat := rfl
  have hwrite : (toJson info).write = compact info := by
    simp [toJson, Json.write, Json.writeItems, Json.commaSeparated, Json.writeNumber, hport,
      compact]
  rw [bytes, hwrite]

/-- The size that is computed is the number of bytes. -/
lemma length_bytes_eq_size (info : DomainInfo) : (bytes info).length = size info := by
  rw [bytes_eq_compact, List.length_cons, size, Nat.add_comm]

/-- A name that is not empty and has no slash passes the check. -/
lemma check_of_name {info : DomainInfo} (hempty : info.name ≠ "")
    (hslash : '/' ∉ info.name.toList) : info.check = .ok () := by
  rw [DomainInfo.check, checkDomainName, if_neg hempty, if_neg hslash]

/-- A domain with a valid name is usable when it has an endpoint. -/
lemma checkUsable_of_check {info : DomainInfo} (h : info.check = .ok ()) :
    checkUsable info
      = if info.endpoint?.isSome then .ok info else .error (.invalidAddress info.address) := by
  rw [checkUsable, h]

/-- A domain without a valid name is refused for its name. -/
lemma checkUsable_of_fault {info : DomainInfo} {fault : NameFault}
    (h : info.check = .error fault) : checkUsable info = .error (.invalidDomain fault) := by
  rw [checkUsable, h]

/-- A domain is not announced exactly if its payload is too long. If it is, then reading the
datagram yields the same domain, unless its name is no name or its address no address. -/
theorem decoded_of_encode (info : DomainInfo) :
    (∀ e, encode info = .error e ↔ maxSize < size info ∧ e = .oversized (size info) maxSize) ∧
    ∀ datagram, encode info = .ok datagram →
      datagram = version :: Utf8.encode (compact info) ∧ datagram.length ≤ maxSize ∧
      (∀ fault, info.check = .error fault → decode datagram = .error (.invalidDomain fault)) ∧
      (info.check = .ok () → info.endpoint? = none →
        decode datagram = .error (.invalidAddress info.address)) ∧
      (info.check = .ok () → info.endpoint?.isSome → decode datagram = .ok info) := by
  have hencode : encode info = if maxSize < size info then .error (.oversized (size info) maxSize)
      else .ok (bytes info) := by
    rw [encode, length_bytes_eq_size]
  by_cases hsize : maxSize < size info
  · rw [if_pos hsize] at hencode
    refine ⟨fun e => ?_, fun datagram h => ?_⟩
    · rw [hencode]
      simp [hsize, eq_comm]
    · rw [hencode] at h
      exact absurd h (by simp)
  · rw [if_neg hsize] at hencode
    refine ⟨fun e => ?_, fun datagram h => ?_⟩
    · rw [hencode]
      simp [hsize]
    · rw [hencode] at h
      obtain rfl := Except.ok.inj h
      have hfits : (bytes info).length ≤ maxSize := by
        rw [length_bytes_eq_size]
        exact Nat.not_lt.1 hsize
      -- the size, the version and the payload are in order, so the domain decides
      rw [decode_bytes_eq hfits]
      refine ⟨bytes_eq_compact info, hfits, fun fault hfault => ?_, fun hcheck hnone => ?_,
        fun hcheck hsome => ?_⟩
      · exact checkUsable_of_fault hfault
      · rw [checkUsable_of_check hcheck, hnone]
        rfl
      · rw [checkUsable_of_check hcheck, if_pos hsome]

/-- A domain whose name needs every kind of escape and characters of every length. -/
def ornate : DomainInfo := ⟨"::ffff:10.0.0.7", 65535, "\"a\\\x07\n\x7fé€😀", "/\t"⟩

/-- The longest name in characters of three bytes that fits beside the other fields. -/
def longest : DomainInfo := { ornate with name := String.ofList (List.replicate 159 '€') }

/-- One byte more. -/
def longer : DomainInfo := { longest with realm := "/\ta" }

/-- It is announced and read. With a slash in the name, or with a host name for an address, it is
announced but not accepted. The limit counts bytes: one more than the longest is too much. -/
theorem decoded_of_ornate :
    (encode ornate = .ok (bytes ornate) ∧ decode (bytes ornate) = .ok ornate) ∧
    decode (bytes { ornate with name := "a/b" }) = .error (.invalidDomain (.slash "a/b")) ∧
    decode (bytes (ornate.withAddress "localhost")) = .error (.invalidAddress "localhost") ∧
    ((bytes longest).length = 512 ∧ decode (bytes longest) = .ok longest) ∧
    encode longer = .error (.oversized 513 512) := by
  have hfits {info : DomainInfo} (h : (bytes info).length ≤ maxSize) :
      encode info = .ok (bytes info) := by
    rw [encode, if_neg (Nat.not_lt.2 h)]
  have hornate : encode ornate = .ok (bytes ornate) := hfits (by decide +kernel)
  have hslash : encode { ornate with name := "a/b" } = .ok (bytes { ornate with name := "a/b" }) :=
    hfits (by decide +kernel)
  have hhost : encode (ornate.withAddress "localhost")
      = .ok (bytes (ornate.withAddress "localhost")) := hfits (by decide +kernel)
  have hname : longest.name.toList = List.replicate 159 '€' := String.toList_ofList
  have hlength : (bytes longest).length = 512 := by
    rw [length_bytes_eq_size, size, compact, Json.writeString, Json.writeString, hname]
    decide +kernel
  have hlongest : encode longest = .ok (bytes longest) := hfits (by rw [hlength]; decide)
  have hname' : longer.name.toList = List.replicate 159 '€' := String.toList_ofList
  have hlonger : size longer = 513 := by
    rw [size, compact, Json.writeString, Json.writeString, hname']
    decide +kernel
  have hcheck : longest.check = .ok () := by
    refine check_of_name (fun h => ?_) (by rw [hname]; decide)
    rw [h] at hname
    exact absurd hname (by decide)
  refine ⟨⟨hornate, ?_⟩, ?_, ?_, ⟨hlength, ?_⟩, ?_⟩
  · exact ((decoded_of_encode ornate).2 _ hornate).2.2.2.2
      (check_of_name (by decide) (by decide)) (by decide +kernel)
  · exact ((decoded_of_encode _).2 _ hslash).2.2.1 _ rfl
  · exact ((decoded_of_encode _).2 _ hhost).2.2.2.1 (check_of_name (by decide) (by decide))
      (by decide +kernel)
  · exact ((decoded_of_encode longest).2 _ hlongest).2.2.2.2 hcheck (by decide +kernel)
  · refine ((decoded_of_encode _).1 _).2 ⟨?_, ?_⟩
    · rw [hlonger]
      decide
    · rw [hlonger]
      rfl

end Switchboard.Heartbeat
