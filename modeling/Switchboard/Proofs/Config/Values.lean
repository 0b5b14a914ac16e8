import Switchboard.Proofs.Config.Partial

/-!
# Settings by their paths

The settings of a configuration and the entries of a document are known by the same paths. What a
document has under a path is what its configuration has there, and where it has nothing, the
configuration has its default.

* `Toml.last?` looks up a name, `Toml.members` are the entries that a value has for a section, and
  `Config.value?` puts both together.
* `Shows` says that a record shows what its fields have been given; `last?_of_flatRecord` and
  `section_of_ofToml` go from there to sections and documents.
* `value_of_ofToml` is the result, and `load_eq_ok_iff` says when a file has one.
* `eq_of_value` says that the paths reach every setting.
-/

namespace Switchboard

open Json (of_map)

/-! ## Entries -/

namespace Toml

/-- The value of a name among entries, the last one if there are several. -/
def last? (name : String) : List Entry → Option Toml
  | [] => none
  | (key, v) :: rest => (last? name rest).or (if key = name then some v else none)

/-- The entries that a value has for a record with the given fields. -/
def members (fields : List String) : Toml → List Entry
  | .table entries => entries
  | .arr items => fields.zip items
  | _ => []

/-- What is found as a text is one. -/
lemma eq_str_of_asString {v : Toml} {s : String} (h : v.found.asString = .ok s) : v = .str s := by
  have hfound := Found.asString_eq_ok_iff.1 h
  cases v with
  | str t => rw [Found.str.inj hfound]
  | _ => exact absurd hfound (by simp [found])

/-- What is found as a number is one. -/
lemma eq_int_of_found {v : Toml} {n : Int} (h : v.found = .int n) : v = .int n := by
  cases v with
  | int m => rw [Found.int.inj h]
  | _ => exact absurd h (by simp [found])

/-- No value is null, so an optional number that is found is there. -/
lemma of_asOptional {v : Toml} {α : Type} {read : Found → Except Mismatch α} {x : Option α}
    (h : v.found.asOptional read = .ok x) : ∃ y, x = some y ∧ read v.found = .ok y := by
  have hread : (read v.found).map some = .ok x := by
    cases v <;> exact h
  obtain ⟨y, hy, rfl⟩ := of_map hread
  exact ⟨y, rfl, hy⟩

section

variable {α β : Type} {assign : String → Toml → α → Except Mismatch α}

/-- A part that only the entries of one name change is decoded from the last of them. -/
lemma part_of_assignEntries (name : String) (decode : Toml → Except Mismatch β) (part : α → β)
    (hown : ∀ {v x y}, assign name v x = .ok y → decode v = .ok (part y))
    (hother : ∀ {key v x y}, key ≠ name → assign key v x = .ok y → part y = part x)
    {entries : List Entry} {x y : α} (h : assignEntries assign x entries = .ok y) :
    (∀ v, last? name entries = some v → decode v = .ok (part y)) ∧
      (last? name entries = none → part y = part x) := by
  induction entries generalizing x with
  | nil =>
    obtain rfl := Except.ok.inj h
    exact ⟨fun v hv => absurd hv (by simp [last?]), fun _ => rfl⟩
  | cons e rest ih =>
    obtain ⟨key, v⟩ := e
    rw [assignEntries, List.foldlM_cons] at h
    obtain ⟨next, hnext, hrest⟩ := Json.of_bind h
    obtain ⟨hsome, hnone⟩ := ih hrest
    rw [last?]
    -- a later entry of the same name wins over this one
    cases hlast : last? name rest with
    | some w =>
      rw [Option.some_or]
      exact ⟨fun v hv => hsome v (hlast.trans hv), fun h => absurd h (by simp)⟩
    | none =>
      have hpart := hnone hlast
      rw [Option.none_or]
      split
      · next hkey =>
        subst hkey
        refine ⟨fun w hw => ?_, fun h => absurd h (by simp)⟩
        rw [← Option.some.inj hw, hpart]
        exact hown hnext
      · next hkey =>
        exact ⟨fun w hw => absurd hw (by simp), fun _ => hpart.trans (hother hkey hnext)⟩

end

end Toml

open Toml (last? members)

/-! ## Sections -/

section sections

variable {α β : Type}

/-- A field that is shown as an entry: it shows the value that it has been given, and giving it a
value changes no other entry. -/
structure Schema.Field.Shows (field : Schema.Field α) (entries : α → List Toml.Entry) : Prop where
  own : ∀ {v : Toml} {x y}, field.assign v.found x = .ok y → last? field.name (entries y) = some v
  other : ∀ {name f x y}, field.name ≠ name → field.assign f x = .ok y →
    last? name (entries y) = last? name (entries x)

section fields

variable {name : String} {read : Found → Except Mismatch β} {put : β → α → α}
  {entries : α → List Toml.Entry}
  (hother : ∀ {other} b x, name ≠ other → last? other (entries (put b x)) = last? other (entries x))
include hother

lemma Schema.Field.Shows.of
    (hown : ∀ {v : Toml} {b} x, read v.found = .ok b → last? name (entries (put b x)) = some v) :
    (Schema.Field.of name read put).Shows entries where
  own h := by
    obtain ⟨b, hb, rfl⟩ := of_map h
    exact hown _ hb
  other hname h := by
    obtain ⟨b, -, rfl⟩ := of_map h
    exact hother b _ hname

lemma Schema.Field.Shows.ofNumber {toNat : β → Nat}
    (hread : ∀ {f w}, read f = .ok w ↔ f = .int (toNat w))
    (hown : ∀ w x, last? name (entries (put w x)) = some (.int (toNat w))) :
    (Schema.Field.of name read put).Shows entries :=
  .of hother fun x h => by rw [hown, Toml.eq_int_of_found (hread.1 h)]

end fields

lemma Schema.Field.Shows.ofText {name : String} {put : String → α → α}
    {entries : α → List Toml.Entry}
    (hother : ∀ {other} s x, name ≠ other →
      last? other (entries (put s x)) = last? other (entries x))
    (hown : ∀ s x, last? name (entries (put s x)) = some (.str s)) :
    (Schema.Field.of name Found.asString put).Shows entries :=
  .of hother fun x h => by rw [hown, Toml.eq_str_of_asString h]

/-- What a record shows of its fields. -/
def Schema.Record.Shows (r : Schema.Record α) (entries : α → List Toml.Entry) : Prop :=
  ∀ field ∈ r.fields, field.Shows entries

variable {r : Schema.Record α} {entries : α → List Toml.Entry} (hr : r.Shows entries)
include hr

/-- An assigned value is shown under its own name. -/
lemma Schema.Record.Shows.last?_of_assign {name key : String} (hname : name ∈ r.names) {v : Toml}
    {x y : α} (h : r.assign key v.found x = .ok y) :
    last? name (entries y) = if key = name then some v else last? name (entries x) := by
  rw [assign] at h
  cases hfind : r.fields.find? (·.name == key) with
  | some field =>
    rw [hfind] at h
    have hmem := List.mem_of_find?_eq_some hfind
    have hkey := List.find?_some hfind
    obtain rfl := beq_iff_eq.1 hkey
    split
    · next heq => exact heq ▸ (hr field hmem).own h
    · next hne => exact (hr field hmem).other hne h
  | none =>
    rw [hfind] at h
    obtain rfl := Except.ok.inj h
    have hne : key ≠ name := by
      rintro rfl
      obtain ⟨field, hfield, hkey⟩ := List.mem_map.1 hname
      have hnot := List.find?_eq_none.1 hfind field hfield
      exact hnot (beq_iff_eq.2 hkey)
    rw [if_neg hne]

/-- The value of a field is the last that has been assigned to it. -/
lemma Schema.Record.Shows.last?_of_assignEntries {name : String} (hname : name ∈ r.names)
    {found : List Toml.Entry} {x y : α}
    (h : Toml.assignEntries (fun name v => r.assign name v.found) x found = .ok y) :
    last? name (entries y) = (last? name found).or (last? name (entries x)) := by
  obtain ⟨hsome, hnone⟩ := Toml.part_of_assignEntries name
    (fun v => .ok (some v)) (fun x => last? name (entries x))
    (fun h => by rw [hr.last?_of_assign hname h, if_pos rfl])
    (fun hne h => by rw [hr.last?_of_assign hname h, if_neg hne]) h
  cases hlast : last? name found with
  | some v =>
    rw [Option.some_or]
    exact (Except.ok.inj (hsome v hlast)).symm
  | none =>
    rw [Option.none_or]
    exact hnone hlast

/-- What a section shows is what it has been decoded from, or its default. -/
theorem Schema.Record.Shows.last?_of_flatRecord {name : String} (hname : name ∈ r.names) {v : Toml}
    {y : α} (h : Toml.flatRecord r v = .ok y) :
    last? name (entries y)
      = (last? name (members r.names v)).or (last? name (entries r.start)) := by
  cases v with
  | table found => exact hr.last?_of_assignEntries hname h
  | arr items => exact hr.last?_of_assignEntries hname h
  | moment text =>
    obtain rfl := Except.ok.inj h
    rfl
  | _ => exact absurd h (by simp [Toml.flatRecord])

end sections

namespace Config

lemma shows_domain : domainRecord.Shows DomainSection.entries := by
  simp only [Schema.Record.Shows, domainRecord, List.forall_mem_cons]
  refine ⟨.ofText (fun s x h => ?_) fun _ _ => rfl, .ofText (fun s x h => ?_) fun _ _ => rfl,
    by simp⟩
  · simp [DomainSection.entries, last?, h]
  · simp [DomainSection.entries, last?, h]

lemma shows_rpc : rpcRecord.Shows RpcSection.entries := by
  simp only [Schema.Record.Shows, rpcRecord, List.forall_mem_cons]
  refine ⟨.ofText (fun s x h => ?_) fun s x => ?_, .of (fun p x h => ?_) fun x h => ?_, by simp⟩
  · simp [RpcSection.entries, last?, h]
  · cases x.advertisePort <;> simp [RpcSection.entries, last?]
  · cases p <;> cases hport : x.advertisePort <;> simp [RpcSection.entries, last?, h, hport]
  · obtain ⟨port, rfl, hport⟩ := Toml.of_asOptional h
    rw [Toml.eq_int_of_found (Found.asWord16_eq_ok_iff.1 hport)]
    rfl

lemma shows_discovery : discoveryRecord.Shows DiscoverySection.entries := by
  simp only [Schema.Record.Shows, discoveryRecord, List.forall_mem_cons]
  refine ⟨.ofText (fun s x h => ?_) fun _ _ => rfl,
    .ofNumber (fun w x h => ?_) Found.asWord16_eq_ok_iff fun _ _ => rfl,
    .ofNumber (fun w x h => ?_) Found.asWord64_eq_ok_iff fun _ _ => rfl,
    .ofNumber (fun w x h => ?_) Found.asWord64_eq_ok_iff fun _ _ => rfl,
    .ofNumber (fun w x h => ?_) Found.asCount_eq_ok_iff fun _ _ => rfl, by simp⟩
  all_goals simp [DiscoverySection.entries, last?, h]

lemma shows_routing : routingRecord.Shows RoutingSection.entries := by
  simp only [Schema.Record.Shows, routingRecord, List.forall_mem_cons]
  refine ⟨.ofNumber (fun w x h => ?_) Found.asCount_eq_ok_iff fun _ _ => rfl, by simp⟩
  simp [RoutingSection.entries, last?, h]

/-! ## Documents -/

/-- What a document has under the path of a setting. -/
def documentValue? (document : List Toml.Entry) : List String → Option Toml
  | [name] => last? name document
  | [name, key] =>
    (last? name document).bind fun v => last? key (members ((names.tables name).getD []) v)
  | _ => none

lemma documentValue?_nil (path : List String) : documentValue? [] path = none := by
  unfold documentValue?
  split <;> rfl

/-- What a configuration has under the path of a setting. -/
def value? (c : Config) (path : List String) : Option Toml := documentValue? c.entries path

/-- The paths of all settings. -/
def paths : List (List String) :=
  Part.all.flatMap fun part =>
    match part.fields? with
    | none => [[part.name]]
    | some keys => keys.map fun key => [part.name, key]

/-- Assigning one part leaves the others. -/
lemma take_of_assignPart {part other : Part} (hne : part ≠ other) {v : Toml} {x y : Config}
    (h : assignPart part v x = .ok y) : y.take other x = x := by
  cases part <;>
  · obtain ⟨s, -, rfl⟩ := of_map h
    cases other <;> simp_all [take]

/-- An entry leaves all parts of other names as they are. -/
lemma take_of_assignEntry {key : String} {part : Part} (hne : key ≠ part.name) {v : Toml}
    {x y : Config} (h : assignEntry key v x = .ok y) : y.take part x = x := by
  unfold assignEntry at h
  split at h
  · next other hother =>
    refine take_of_assignPart (fun heq => hne ?_) h
    rw [← heq]
    exact ofName?_eq_some_iff.1 hother
  · obtain rfl := Except.ok.inj h
    cases part <;> rfl

section document

variable {document : List Toml.Entry} {c : Config} (h : ofToml document = .ok c)
include h

/-- A part of the configuration is decoded from what stands under its name. -/
lemma part_of_ofToml {β : Type} (part : Part) (decode : Toml → Except Mismatch β)
    (get : Config → β) (put : β → Config → Config)
    (hassign : ∀ v x, assignPart part v x = (decode v).map fun b => put b x)
    (hget : ∀ b x, get (put b x) = b) (htake : ∀ c x, get (take c part x) = get c) :
    (∀ v, last? part.name document = some v → decode v = .ok (get c)) ∧
      (last? part.name document = none → get c = get {}) := by
  refine Toml.part_of_assignEntries _ decode get (fun hown => ?_) (fun hne hother => ?_) h
  · rw [assignEntry_name, hassign] at hown
    obtain ⟨b, hb, rfl⟩ := of_map hown
    rw [hb, hget]
  · rw [← htake, take_of_assignEntry hne hother]

theorem section_of_ofToml {α : Type} {r : Schema.Record α} {entries : α → List Toml.Entry}
    (hr : r.Shows entries) (part : Part) (get : Config → α) (put : α → Config → Config)
    (hassign : ∀ v x, assignPart part v x = (Toml.flatRecord r v).map fun s => put s x)
    (hget : ∀ s x, get (put s x) = s) (htake : ∀ c x, get (take c part x) = get c)
    (hstart : get {} = r.start) {key : String} (hkey : key ∈ r.names) :
    last? key (entries (get c))
      = ((last? part.name document).bind fun v => last? key (members r.names v)).or
          (last? key (entries (get {}))) := by
  obtain ⟨hsome, hnone⟩ := part_of_ofToml h part (Toml.flatRecord r) get put hassign hget htake
  cases hlast : last? part.name document with
  | some v => rw [Option.bind_some, hr.last?_of_flatRecord hkey (hsome v hlast), hstart]
  | none => rw [Option.bind_none, Option.none_or, hnone hlast]

/-- Under each path a configuration has what its document has there, and where that has nothing, its
default. -/
theorem value_of_ofToml {path : List String} (hpath : path ∈ paths) :
    c.value? path = (documentValue? document path).or (({} : Config).value? path) := by
  -- the level stands alone, and the other settings are in sections
  obtain ⟨part, -, hmem⟩ := List.mem_flatMap.1 hpath
  cases part with
  | logLevel =>
    obtain rfl := List.mem_singleton.1 hmem
    obtain ⟨hsome, hnone⟩ := part_of_ofToml h .logLevel (fun v => v.found.asString)
      Config.logLevel (fun logLevel c => { c with logLevel })
      (fun _ _ => rfl) (fun _ _ => rfl) fun _ _ => rfl
    change some (Toml.str c.logLevel) = (last? Part.logLevel.name document).or _
    cases hlast : last? Part.logLevel.name document with
    | some v => rw [Option.some_or, Toml.eq_str_of_asString (hsome v hlast)]
    | none =>
      rw [Option.none_or, hnone hlast]
      rfl
  | domain =>
    obtain ⟨key, hkey, rfl⟩ := List.mem_map.1 hmem
    exact section_of_ofToml h shows_domain .domain Config.domain
      (fun domain c => { c with domain }) (fun _ _ => rfl) (fun _ _ => rfl)
      (fun _ _ => rfl) rfl hkey
  | rpc =>
    obtain ⟨key, hkey, rfl⟩ := List.mem_map.1 hmem
    exact section_of_ofToml h shows_rpc .rpc Config.rpc
      (fun rpc c => { c with rpc }) (fun _ _ => rfl) (fun _ _ => rfl)
      (fun _ _ => rfl) rfl hkey
  | discovery =>
    obtain ⟨key, hkey, rfl⟩ := List.mem_map.1 hmem
    exact section_of_ofToml h shows_discovery .discovery Config.discovery
      (fun discovery c => { c with discovery }) (fun _ _ => rfl) (fun _ _ => rfl)
      (fun _ _ => rfl) rfl hkey
  | routing =>
    obtain ⟨key, hkey, rfl⟩ := List.mem_map.1 hmem
    exact section_of_ofToml h shows_routing .routing Config.routing
      (fun routing c => { c with routing }) (fun _ _ => rfl) (fun _ _ => rfl)
      (fun _ _ => rfl) rfl hkey

end document

/-! ## Files -/

/-- A text is parsed when it is a document and the document decodes. -/
lemma parseToml_eq_ok_iff {text : String} {c : Config} : parseToml text = .ok c ↔
    ∃ document, Toml.parse? text = some document ∧ ofToml document = .ok c := by
  rw [parseToml]
  cases Toml.parse? text with
  | none => simp
  | some document => cases hdocument : ofToml document <;> simp [hdocument]

/-- A file is loaded if it is text, the text is a document and the document is a configuration. -/
theorem load_eq_ok_iff {path : String} {content : Except FileFault (List UInt8)} {c : Config} :
    load path content = .ok c ↔ ∃ bytes text document, content = .ok bytes ∧
      Utf8.decode bytes = some text ∧ Toml.parse? (String.ofList text) = some document ∧
      ofToml document = .ok c := by
  constructor
  · intro h
    unfold load at h
    split at h
    · exact absurd h (by simp)
    next bytes =>
    split at h
    · exact absurd h (by simp)
    next text htext =>
    split at h
    · exact absurd h (by simp)
    next hparse =>
    obtain rfl := Except.ok.inj h
    obtain ⟨document, hdocument, hdecode⟩ := parseToml_eq_ok_iff.1 hparse
    exact ⟨bytes, text, document, rfl, htext, hdocument, hdecode⟩
  · rintro ⟨bytes, text, document, rfl, htext, hdocument, hdecode⟩
    simp only [load, htext, parseToml_eq_ok_iff.2 ⟨document, hdocument, hdecode⟩]

/-! ## All settings -/

lemma forall_paths_iff {P : List String → Prop} : (∀ path ∈ paths, P path) ↔
    P ["log_level"] ∧ P ["domain", "name"] ∧ P ["domain", "realm"] ∧
    P ["rpc", "router_address"] ∧ P ["rpc", "advertise_port"] ∧
    P ["discovery", "multicast_group"] ∧ P ["discovery", "multicast_port"] ∧
    P ["discovery", "heartbeat_period_ms"] ∧ P ["discovery", "interface_poll_period_ms"] ∧
    P ["discovery", "receive_buffer_size"] ∧ P ["routing", "max_in_flight_calls"] := by
  simp [paths, Part.all, Part.fields?, Part.name, Schema.Record.names, domainRecord, rpcRecord,
    discoveryRecord, routingRecord, Schema.Field.of]

/-- The entries of the section depend on whether there is a port. -/
theorem value?_rpc (c : Config) :
    c.value? ["rpc", "router_address"] = some (.str c.rpc.routerAddress) ∧
    c.value? ["rpc", "advertise_port"] = c.rpc.advertisePort.map fun port => .int port.toNat := by
  change last? "router_address" c.rpc.entries = _ ∧ last? "advertise_port" c.rpc.entries = _
  rw [RpcSection.entries]
  cases c.rpc.advertisePort <;> exact ⟨rfl, rfl⟩

/-- The paths reach all settings. -/
theorem eq_of_value {c c' : Config} (h : ∀ path ∈ paths, c.value? path = c'.value? path) :
    c = c' := by
  have text {s t : String} (h : some (Toml.str s) = some (.str t)) : s = t :=
    Toml.str.inj (Option.some.inj h)
  have number {m n : Nat} (h : some (Toml.int m) = some (.int n)) : m = n :=
    Int.ofNat.inj (Toml.int.inj (Option.some.inj h))
  have hwritten : Function.Injective fun port : UInt16 => Toml.int port.toNat :=
    fun port port' h => UInt16.toNat_inj.1 (number (congrArg some h))
  rw [forall_paths_iff] at h
  obtain ⟨hlevel, hname, hrealm, hrouter, hadvertise, hgroup, hport, hheartbeat, hpoll, hbuffer,
    hcalls⟩ := h
  rw [(value?_rpc c).1, (value?_rpc c').1] at hrouter
  rw [(value?_rpc c).2, (value?_rpc c').2] at hadvertise
  change Config.mk c.logLevel ⟨c.domain.name, c.domain.realm⟩
    ⟨c.rpc.routerAddress, c.rpc.advertisePort⟩
    ⟨c.discovery.multicastGroup, c.discovery.multicastPort, c.discovery.heartbeatPeriodMs,
      c.discovery.interfacePollPeriodMs, c.discovery.receiveBufferSize⟩
    ⟨c.routing.maxInFlightCalls⟩ = c'
  rw [text hlevel, text hname, text hrealm, text hrouter, Option.map_injective hwritten hadvertise,
    text hgroup, UInt16.toNat_inj.1 (number hport), UInt64.toNat_inj.1 (number hheartbeat),
    UInt64.toNat_inj.1 (number hpoll), UInt64.toNat_inj.1 (number hbuffer),
    UInt64.toNat_inj.1 (number hcalls)]

end Config
end Switchboard
