import Switchboard.Proofs.Domain.Heartbeat
import Switchboard.Proofs.Json.Syntax
import Switchboard.Proofs.Net.Literals

/-!
# Which datagrams are heartbeats

The grammar of heartbeats, said without reading. `decode_grammar` says that exactly the datagrams of
the grammar are accepted, and that any other is refused for the first thing that is wrong with it.
-/

namespace Switchboard.Heartbeat

open Json (Input Row)

/-! ## The grammar -/

/-- The texts of a payload: an array of a string, a natural number and two strings. -/
def Payload (info : DomainInfo) (text : List Char) : Prop :=
  ∃ address name realm, Json.Quoted info.address address ∧ Json.Quoted info.name name ∧
    Json.Quoted info.realm realm ∧
    Json.Spaced [['['], address, [','], Nat.toDigits 10 info.port.toNat, [','], name, [','], realm,
      [']']] text

/-- The datagrams that announce a domain which can be routed to and reached. -/
structure Announces (datagram : List UInt8) (info : DomainInfo) : Prop where
  nonempty : 1 ≤ datagram.length
  size : datagram.length ≤ 512
  version : datagram.head? = some version
  payload : ∃ text, Payload info text ∧ datagram.tail = Utf8.encode text
  name : info.name ≠ "" ∧ '/' ∉ info.name.toList
  address : Ip.Literal info.address.toList

/-- What is wrong with a datagram, all that is looked at before being in order. -/
inductive FirstFault : List UInt8 → Error → Prop
  | empty : FirstFault [] (.insufficientData 1 0)
  | size {datagram : List UInt8} (h : 512 < datagram.length) :
      FirstFault datagram (.oversized datagram.length 512)
  | version {v : UInt8} {payload : List UInt8} (hsize : (v :: payload).length ≤ 512)
      (h : v ≠ version) : FirstFault (v :: payload) (.unsupportedVersion v)
  | payload {payload : List UInt8} {cause : Json.Error} (hsize : payload.length < 512)
      (h : ∀ info text, Payload info text → payload ≠ Utf8.encode text) :
      FirstFault (Heartbeat.version :: payload) (.malformedPayload cause)
  | emptyName {info : DomainInfo} {text : List Char} (hsize : (Utf8.encode text).length < 512)
      (hpayload : Payload info text) (h : info.name = "") :
      FirstFault (Heartbeat.version :: Utf8.encode text) (.invalidDomain .empty)
  | slash {info : DomainInfo} {text : List Char} (hsize : (Utf8.encode text).length < 512)
      (hpayload : Payload info text) (h : '/' ∈ info.name.toList) :
      FirstFault (Heartbeat.version :: Utf8.encode text) (.invalidDomain (.slash info.name))
  | address {info : DomainInfo} {text : List Char} (hsize : (Utf8.encode text).length < 512)
      (hpayload : Payload info text) (hname : info.name ≠ "" ∧ '/' ∉ info.name.toList)
      (h : ¬Ip.Literal info.address.toList) :
      FirstFault (Heartbeat.version :: Utf8.encode text) (.invalidAddress info.address)

/-! ## Elements that have been read -/

section element

variable {α : Type} {read : Found → Except Mismatch α} {x : α} {input rest : Input}
  {tokens : List (List Char)} {IsToken : List Char → Prop}

/-- A text that is read was a quoted one. -/
lemma quoted_of_scalar {s : String} (input rest : Input)
    (h : Json.scalar Found.asString input = .ok (s, rest)) :
    ∃ token, Json.Quoted s token ∧ Json.skipBlank input = Input.ofText token ++ rest :=
  Json.quoted_of_glimpse (glimpse_of_asString h)

/-- A port that is read was written with its digits. -/
lemma digits_of_scalar {port : UInt16} (input rest : Input)
    (h : Json.scalar Found.asWord16 input = .ok (port, rest)) :
    ∃ token, token = Nat.toDigits 10 port.toNat ∧
      Json.skipBlank input = Input.ofText token ++ rest :=
  ⟨_, rfl, Json.natural_of_glimpse (glimpse_of_asWord16 h)⟩

/-- An element is its token, behind a comma unless it is the first. -/
lemma row_of_element {index : Nat}
    (hread : ∀ input rest, Json.scalar read input = .ok (x, rest) →
      ∃ token, IsToken token ∧ Json.skipBlank input = Input.ofText token ++ rest)
    (h : element index read input = .ok (x, rest)) (hrest : Row tokens rest) :
    ∃ token, IsToken token ∧ Row (Json.comma (index == 0) ++ token :: tokens) input := by
  obtain ⟨next, hnext, h⟩ := Json.of_bind h
  cases next with
  | none => exact absurd h (by simp)
  | some next =>
    obtain ⟨token, htoken, hskip⟩ := hread next rest h
    have hleads := Json.leads_of_nextElement (Json.of_malformed hnext)
    exact ⟨token, htoken, hleads _ (Json.row_cons hskip hrest)⟩

/-! ## Elements that stand in a row -/

variable {found : Found} {token : List Char}

lemma element_of_row (index : Nat) (hstarts : Json.Starts token)
    (hfound : ∀ rest, Row tokens rest →
      Json.glimpse (Input.ofText token ++ rest) = .ok (found, rest))
    (hread : read found = .ok x) (h : Row (Json.comma (index == 0) ++ token :: tokens) input) :
    ∃ rest, element index read input = .ok (x, rest) ∧ Row tokens rest := by
  obtain ⟨next, hnext, hrow⟩ := Json.nextElement_of_row hstarts h
  obtain ⟨rest, hskip, hrest⟩ := Json.of_row_cons hrow
  have hglimpse := hfound rest hrest
  rw [← Json.glimpse_congr hskip] at hglimpse
  refine ⟨rest, ?_, hrest⟩
  rw [element, hnext]
  simp only [Json.scalar, Json.malformed, Json.mismatched, bind, Except.bind, hglimpse, hread]

end element

/-! ## Payloads -/

/-- Exactly the texts of a payload are read as one. -/
lemma readPayload_eq_ok_iff {input : Input} {info : DomainInfo} :
    readPayload input = .ok info ↔ ∃ text, Payload info text ∧ input = Input.ofText text := by
  constructor
  · intro h
    obtain ⟨⟨found, start⟩, hfound, h⟩ := Json.of_bind h
    cases found with
    | sequence =>
      obtain ⟨⟨address, rest₁⟩, haddress, h⟩ := Json.of_bind h
      obtain ⟨⟨port, rest₂⟩, hport, h⟩ := Json.of_bind h
      obtain ⟨⟨name, rest₃⟩, hname, h⟩ := Json.of_bind h
      obtain ⟨⟨realm, rest₄⟩, hrealm, h⟩ := Json.of_bind h
      obtain ⟨rest₅, hend, h⟩ := Json.of_bind h
      obtain ⟨_, hfinish, h⟩ := Json.of_bind h
      obtain rfl := Except.ok.inj h
      obtain ⟨hskip, behind, rfl⟩ := Json.of_glimpse_sequence (Json.of_malformed hfound)
      -- the row grows from its end, where nothing but blanks is left
      have hrow := Json.row_nil (Json.of_finish (Json.of_malformed hfinish))
      have hrow : Row [[']']] rest₄ :=
        Json.row_cons (Json.of_endList (Json.of_malformed hend)) hrow
      obtain ⟨realm', hrealm', hrow⟩ := row_of_element quoted_of_scalar hrealm hrow
      obtain ⟨name', hname', hrow⟩ := row_of_element quoted_of_scalar hname hrow
      obtain ⟨port', rfl, hrow⟩ := row_of_element digits_of_scalar hport hrow
      obtain ⟨address', haddress', hrow⟩ := row_of_element quoted_of_scalar haddress hrow
      obtain ⟨text, htext, rfl⟩ : Row (['['] :: _) input := Json.row_cons hskip hrow
      exact ⟨text, ⟨address', name', realm', haddress', hname', hrealm', htext⟩, rfl⟩
    | _ => exact absurd h (by simp)
  · rintro ⟨text, ⟨address, name, realm, haddress, hname, hrealm, htext⟩, rfl⟩
    have hquoted {s : String} {token : List Char} {tokens : List (List Char)}
        (h : Json.Quoted s token) (rest : Input) (_ : Row tokens rest) :
        Json.glimpse (Input.ofText token ++ rest) = .ok (.str s, rest) := Json.glimpse_quoted h rest
    have hstring (s : String) : (Found.str s).asString = .ok s := rfl
    have hword := isWord_port info.port
    obtain ⟨rest₀, hopen, hrow⟩ := Json.of_row_mark (by decide) ⟨text, htext, rfl⟩
    obtain ⟨rest₁, hread₁, hrow⟩ := element_of_row 0 haddress.starts (hquoted haddress)
      (hstring _) hrow
    obtain ⟨rest₂, hread₂, hrow⟩ := element_of_row 1 (Json.starts_writeInt hword)
      (fun rest hrest => Json.glimpse_writeInt hword
        (Json.stops_of_ends (Json.ends_cons (.inl rfl)) hrest))
      (Found.asWord16_eq_ok_iff.2 rfl) hrow
    obtain ⟨rest₃, hread₃, hrow⟩ := element_of_row 2 hname.starts (hquoted hname)
      (hstring _) hrow
    obtain ⟨rest₄, hread₄, hrow⟩ := element_of_row 3 hrealm.starts (hquoted hrealm)
      (hstring _) hrow
    obtain ⟨rest₅, hend, hrow⟩ := Json.endList_of_row hrow
    have hfound : Json.glimpse (Input.ofText text) = .ok (.sequence, some '[' :: rest₀) := by
      rw [Json.glimpse, hopen]
      rfl
    have hfinish := Json.finish_eq_ok_iff.2 (Json.of_row_nil hrow)
    rw [readPayload, hfound]
    simp only [Json.malformed, bind, Except.bind, List.tail_cons, hread₁, hread₂, hread₃, hread₄,
      hend, hfinish]

/-! ## Datagrams -/

/-- A payload is read when it is the code of a text in the grammar. -/
lemma readPayload_symbols_iff {payload : List UInt8} {info : DomainInfo} :
    readPayload (Utf8.symbols payload) = .ok info ↔
      ∃ text, Payload info text ∧ payload = Utf8.encode text := by
  rw [readPayload_eq_ok_iff]
  constructor
  · rintro ⟨text, htext, hsymbols⟩
    exact ⟨text, htext, (Utf8.encode_of_symbols hsymbols).symm⟩
  · rintro ⟨text, htext, rfl⟩
    refine ⟨text, htext, ?_⟩
    have hsymbols := Utf8.symbols_encode text []
    rwa [List.append_nil, show Utf8.symbols [] = [] from rfl, List.append_nil] at hsymbols

/-- A domain has an endpoint when its address is a literal. -/
lemma isSome_endpoint? (info : DomainInfo) :
    info.endpoint?.isSome ↔ Ip.Literal info.address.toList := by
  rw [DomainInfo.endpoint?, Option.isSome_map, Ip.isSome_parse?]

/-- A domain with a name and an address is usable. -/
lemma checkUsable_of_literal {info : DomainInfo} (hname : info.name ≠ "" ∧ '/' ∉ info.name.toList)
    (haddress : Ip.Literal info.address.toList) : checkUsable info = .ok info := by
  rw [checkUsable_of_check (check_of_name hname.1 hname.2),
    if_pos ((isSome_endpoint? info).2 haddress)]

/-- Another version is refused before anything else is read. -/
lemma decode_version {v : UInt8} {payload : List UInt8} (hsize : (v :: payload).length ≤ maxSize)
    (h : v ≠ version) : decode (v :: payload) = .error (.unsupportedVersion v) := by
  rw [decode, if_neg (Nat.not_lt.2 hsize), if_pos h]

/-- A payload in the grammar is decoded, but for the check of its domain. -/
lemma decode_payload {text : List Char} {info : DomainInfo}
    (hsize : (version :: Utf8.encode text).length ≤ maxSize) (h : Payload info text) :
    decode (version :: Utf8.encode text) = checkUsable info := by
  have hread : readPayload (Utf8.symbols (Utf8.encode text)) = .ok info :=
    readPayload_symbols_iff.2 ⟨text, h, rfl⟩
  rw [decode, if_neg (Nat.not_lt.2 hsize), if_neg (fun h => h rfl), hread]

/-- A datagram of the grammar is accepted. -/
theorem Announces.decode_eq {datagram : List UInt8} {info : DomainInfo}
    (h : Announces datagram info) : decode datagram = .ok info := by
  obtain ⟨hnonempty, hsize, hversion, ⟨text, htext, htail⟩, hname, haddress⟩ := h
  cases datagram with
  | nil => exact absurd hnonempty (by decide)
  | cons v payload =>
    rw [Option.some.inj hversion, show payload = Utf8.encode text from htail] at hsize ⊢
    rw [decode_payload hsize htext]
    exact checkUsable_of_literal hname haddress

/-- What has a payload is accepted, or its domain is at fault. -/
lemma settled_of_payload {text : List Char} {info : DomainInfo}
    (hsize : (Utf8.encode text).length < 512) (htext : Payload info text) :
    Announces (version :: Utf8.encode text) info ∨
      ∃ e, checkUsable info = .error e ∧ FirstFault (version :: Utf8.encode text) e := by
  by_cases hempty : info.name = ""
  · have hcheck : info.check = .error .empty := by
      rw [DomainInfo.check, checkDomainName, if_pos hempty]
    exact .inr ⟨_, checkUsable_of_fault hcheck, .emptyName hsize htext hempty⟩
  by_cases hslash : '/' ∈ info.name.toList
  · have hcheck : info.check = .error (.slash info.name) := by
      rw [DomainInfo.check, checkDomainName, if_neg hempty, if_pos hslash]
    exact .inr ⟨_, checkUsable_of_fault hcheck, .slash hsize htext hslash⟩
  by_cases haddress : Ip.Literal info.address.toList
  · exact .inl ⟨Nat.succ_le_succ (Nat.zero_le _), hsize, rfl, ⟨text, htext, rfl⟩, ⟨hempty, hslash⟩,
      haddress⟩
  · have hnone : ¬info.endpoint?.isSome := fun h => haddress ((isSome_endpoint? info).1 h)
    refine .inr ⟨.invalidAddress info.address, ?_, .address hsize htext ⟨hempty, hslash⟩ haddress⟩
    rw [checkUsable_of_check (check_of_name hempty hslash), if_neg hnone]

/-- Every datagram is of the grammar or has a first fault, which is why it is refused. -/
theorem decode_settled (datagram : List UInt8) :
    (∃ info, Announces datagram info) ∨
      ∃ e, decode datagram = .error e ∧ FirstFault datagram e := by
  cases datagram with
  | nil => exact .inr ⟨_, rfl, .empty⟩
  | cons v payload =>
    by_cases hsize : maxSize < (v :: payload).length
    · exact .inr ⟨_, if_pos hsize, .size hsize⟩
    have hfits := Nat.not_lt.1 hsize
    by_cases hversion : v = version
    · subst hversion
      cases hread : readPayload (Utf8.symbols payload) with
      | error cause =>
        refine .inr ⟨.malformedPayload cause, ?_, .payload hfits fun info text htext hpayload => ?_⟩
        · rw [decode, if_neg hsize, if_neg (fun h => h rfl), hread]
        · rw [readPayload_symbols_iff.2 ⟨text, htext, hpayload⟩] at hread
          exact absurd hread (by simp)
      | ok info =>
        obtain ⟨text, htext, rfl⟩ := readPayload_symbols_iff.1 hread
        rw [decode_payload hfits htext]
        exact (settled_of_payload hfits htext).imp_left fun h => ⟨info, h⟩
    · exact .inr ⟨_, decode_version hfits hversion, .version hfits hversion⟩

/-- Exactly the datagrams of the grammar are accepted, and any other is refused for the first thing
that is wrong with it. Of a datagram with another version nothing but the size matters. -/
theorem decode_grammar (datagram : List UInt8) :
    (∀ info, decode datagram = .ok info ↔ Announces datagram info) ∧
    (∀ e, decode datagram = .error e → FirstFault datagram e) ∧
    ∀ v payload, datagram = v :: payload → datagram.length ≤ 512 → v ≠ version →
      decode datagram = .error (.unsupportedVersion v) := by
  refine ⟨fun info => ⟨fun h => ?_, Announces.decode_eq⟩, fun e h => ?_, ?_⟩
  · obtain ⟨info', hannounces⟩ | ⟨e, he, -⟩ := decode_settled datagram
    · rw [hannounces.decode_eq] at h
      rwa [← Except.ok.inj h]
    · rw [he] at h
      exact absurd h (by simp)
  · obtain ⟨info, hannounces⟩ | ⟨e', he', hfault⟩ := decode_settled datagram
    · rw [hannounces.decode_eq] at h
      exact absurd h (by simp)
    · rw [he'] at h
      rwa [← Except.error.inj h]
  · rintro v payload rfl hsize hversion
    exact decode_version hsize hversion

/-- A port with a zero in front. -/
def padded : List UInt8 := version :: Utf8.encode "[\"10.0.0.7\",08080,\"a\",\"r\"]".toList

/-- The datagram that spells a domain at length is of the grammar. A zero in front of the port is
not, a slash in the name is found before the address is looked at, and another version is all that
is looked at. -/
theorem decode_grammar_of_verbose : Announces verbose announced ∧
    FirstFault padded (.malformedPayload (.malformed .invalidNumber)) ∧
    FirstFault (version :: Utf8.encode "[\"x\",1,\"a/b\",\"\"]".toList)
      (.invalidDomain (.slash "a/b")) ∧
    decode [2, 255, 91] = .error (.unsupportedVersion 2) := by
  have hverbose : (decode verbose).toOption = some announced := by decide +kernel
  have hpadded : decode padded = .error (.malformedPayload (.malformed .invalidNumber)) := by rfl
  have hslash : decode (version :: Utf8.encode "[\"x\",1,\"a/b\",\"\"]".toList)
      = .error (.invalidDomain (.slash "a/b")) := by rfl
  refine ⟨?_, ?_, ?_, ?_⟩
  · exact ((decode_grammar verbose).1 announced).1 (Json.ok_of_toOption hverbose)
  · exact (decode_grammar padded).2.1 _ hpadded
  · exact (decode_grammar _).2.1 _ hslash
  · exact (decode_grammar _).2.2 2 [255, 91] rfl (by decide) (by decide)

end Switchboard.Heartbeat
