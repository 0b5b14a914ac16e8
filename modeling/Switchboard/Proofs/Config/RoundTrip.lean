import Switchboard.Cli.Run
import Switchboard.Proofs.Json.Strings
import Switchboard.Proofs.Schema.Scalars
import Switchboard.Proofs.Toml.Bounds
import Switchboard.Proofs.Toml.Lines
import Switchboard.Proofs.Toml.Tables

/-!
# Settings as they are written and read

* A configuration whose numbers TOML can hold is read back from the document that is written for it:
  `parse?_writeToml` gives the entries of the document, `ofToml_entries` what they are decoded to.
* `fits_of_parseToml` says that every configuration that is read is one of these, so printing the
  settings of a command cannot fail.
* `roundTrip_of_renderToml` puts both together.
-/

namespace Switchboard

open Toml (IsBare Reads entryStatements tableStatements)
open Json (of_bind of_map)

/-! ## Settings as entries -/

/-- The section as a table. -/
def DomainSection.entries (s : DomainSection) : List Toml.Entry :=
  [("name", .str s.name), ("realm", .str s.realm)]

/-- The section as a table, which a port that is not set is left out of. -/
def RpcSection.entries (s : RpcSection) : List Toml.Entry :=
  ("router_address", .str s.routerAddress) ::
    match s.advertisePort with
    | some port => [("advertise_port", .int port.toNat)]
    | none => []

/-- The section as a table. -/
def DiscoverySection.entries (s : DiscoverySection) : List Toml.Entry :=
  [("multicast_group", .str s.multicastGroup), ("multicast_port", .int s.multicastPort.toNat),
    ("heartbeat_period_ms", .int s.heartbeatPeriodMs.toNat),
    ("interface_poll_period_ms", .int s.interfacePollPeriodMs.toNat),
    ("receive_buffer_size", .int s.receiveBufferSize.toNat)]

/-- The section as a table. -/
def RoutingSection.entries (s : RoutingSection) : List Toml.Entry :=
  [("max_in_flight_calls", .int s.maxInFlightCalls.toNat)]

namespace Config

/-- The sections, in order. -/
def tables (c : Config) : List Toml.NamedTable :=
  [("domain", c.domain.entries), ("rpc", c.rpc.entries), ("discovery", c.discovery.entries),
    ("routing", c.routing.entries)]

/-- All settings as a document. -/
def entries (c : Config) : List Toml.Entry :=
  ("log_level", .str c.logLevel) :: c.tables.map fun (name, entries) => (name, .table entries)

end Config

/-! ## Numbers that TOML can hold -/

/-- The numbers of the section are no larger than TOML can hold. -/
structure DiscoverySection.Fits (s : DiscoverySection) : Prop where
  heartbeatPeriod : s.heartbeatPeriodMs.toNat ≤ 2 ^ 63 - 1
  pollPeriod : s.interfacePollPeriodMs.toNat ≤ 2 ^ 63 - 1
  receiveBuffer : s.receiveBufferSize.toNat ≤ 2 ^ 63 - 1

/-- The numbers of the section are no larger than TOML can hold. -/
structure RoutingSection.Fits (s : RoutingSection) : Prop where
  maxInFlight : s.maxInFlightCalls.toNat ≤ 2 ^ 63 - 1

/-- All numbers are no larger than TOML can hold. -/
structure Config.Fits (c : Config) : Prop where
  discovery : c.discovery.Fits
  routing : c.routing.Fits

namespace Config

/-- A number is writable when it fits the signed integers of a document. -/
lemma isWritable_iff {n : UInt64} : isWritable n = true ↔ n.toNat ≤ 2 ^ 63 - 1 := by
  rw [isWritable, decide_eq_true_eq]
  omega

/-- All numbers are writable when the configuration fits. -/
lemma all_isWritable_iff {c : Config} : c.wideNumbers.all isWritable = true ↔ c.Fits := by
  simp only [wideNumbers, List.all_cons, List.all_nil, Bool.and_true, Bool.and_eq_true,
    isWritable_iff]
  constructor
  · rintro ⟨hheartbeat, hpoll, hbuffer, hcalls⟩
    exact ⟨⟨hheartbeat, hpoll, hbuffer⟩, ⟨hcalls⟩⟩
  · rintro ⟨⟨hheartbeat, hpoll, hbuffer⟩, ⟨hcalls⟩⟩
    exact ⟨hheartbeat, hpoll, hbuffer, hcalls⟩

lemma renderToml_of_fits {c : Config} (h : c.Fits) :
    c.renderToml = some (String.ofList c.writeToml) := by
  rw [renderToml, if_pos (all_isWritable_iff.2 h)]

/-- A configuration is rendered when it fits, and as it is written. -/
lemma renderToml_eq_some_iff {c : Config} {text : String} :
    c.renderToml = some text ↔ c.Fits ∧ text = String.ofList c.writeToml := by
  constructor
  · intro h
    unfold renderToml at h
    split at h
    · next hall => exact ⟨all_isWritable_iff.1 hall, (Option.some.inj h).symm⟩
    · exact absurd h (by simp)
  · rintro ⟨h, rfl⟩
    exact renderToml_of_fits h

/-! ## Reading what is written -/

/-- The line of a text is read as its entry. -/
lemma reads_textSetting {key : String} (h : IsBare key) (value : String) :
    Reads (textSetting key value) (entryStatements [(key, .str value)]) := by
  have hmeans := Toml.means_write value.toList
  rw [String.ofList_toList] at hmeans
  have hsplit : textSetting key value
      = key.toList ++ ' ' :: '=' :: ' ' :: Toml.Text.write value.toList ++ ['\n'] := by
    simp [textSetting, setting]
  rw [hsplit]
  exact Toml.reads_setting h hmeans

/-- The line of a number is read as its entry. -/
lemma reads_numberSetting {key : String} (h : IsBare key) {n : Nat} (hn : n ≤ 2 ^ 63 - 1) :
    Reads (numberSetting key n) (entryStatements [(key, .int n)]) := by
  have hmax : (n : Int) ≤ Toml.maxInt := by
    unfold Toml.maxInt
    omega
  have hsplit : numberSetting key n
      = key.toList ++ ' ' :: '=' :: ' ' :: Nat.toDigits 10 n ++ ['\n'] := by
    simp [numberSetting, setting]
  rw [hsplit]
  exact Toml.reads_setting h (Toml.means_toDigits hmax)

/-- One more setting in front of others. -/
theorem reads_cons {text : List Char} {texts : List (List Char)} {entry : Toml.Entry}
    {entries : List Toml.Entry} (h : Reads text (entryStatements [entry]))
    (hrest : Reads texts.flatten (entryStatements entries)) :
    Reads (text :: texts).flatten (entryStatements (entry :: entries)) :=
  h.append hrest

/-- The lines of a section are read as its table. -/
lemma reads_tableText {name : String} {settings : List (List Char)} {entries : List Toml.Entry}
    (h : IsBare name) (hsettings : Reads settings.flatten (entryStatements entries)) :
    Reads (tableText name settings) (tableStatements [(name, entries)]) := by
  -- the header is the second line, behind an empty one
  have hsplit : tableText name settings
      = ['\n'] ++ ('[' :: (name.toList ++ [']']) ++ ['\n'] ++ settings.flatten) := by
    simp [tableText]
  have hstatements : tableStatements [(name, entries)]
      = [] ++ ([.table [] name] ++ entryStatements entries) := by
    simp [tableStatements]
  rw [hsplit, hstatements]
  exact Toml.reads_blank.append ((Toml.reads_header h).append hsettings)

lemma reads_domain (s : DomainSection) :
    Reads (tableText "domain" [textSetting "name" s.name, textSetting "realm" s.realm])
      (tableStatements [("domain", s.entries)]) := by
  have hname : Reads (textSetting "name" s.name) _ := reads_textSetting (by decide) s.name
  have hrealm : Reads (textSetting "realm" s.realm) _ := reads_textSetting (by decide) s.realm
  exact reads_tableText (by decide) (reads_cons hname (reads_cons hrealm Toml.reads_nil))

lemma reads_rpc (s : RpcSection) :
    Reads (tableText "rpc" (textSetting "router_address" s.routerAddress ::
        match s.advertisePort with
        | some port => [numberSetting "advertise_port" port.toNat]
        | none => []))
      (tableStatements [("rpc", s.entries)]) := by
  have hrouter : Reads (textSetting "router_address" s.routerAddress) _ :=
    reads_textSetting (by decide) s.routerAddress
  refine reads_tableText (by decide) (reads_cons hrouter ?_)
  cases s.advertisePort with
  | none => exact Toml.reads_nil
  | some port =>
    have hlt := port.toNat_lt
    have hport : Reads (numberSetting "advertise_port" port.toNat) _ :=
      reads_numberSetting (by decide) (by omega)
    exact reads_cons hport Toml.reads_nil

lemma reads_discovery {s : DiscoverySection} (h : s.Fits) :
    Reads (tableText "discovery"
        [textSetting "multicast_group" s.multicastGroup,
          numberSetting "multicast_port" s.multicastPort.toNat,
          numberSetting "heartbeat_period_ms" s.heartbeatPeriodMs.toNat,
          numberSetting "interface_poll_period_ms" s.interfacePollPeriodMs.toNat,
          numberSetting "receive_buffer_size" s.receiveBufferSize.toNat])
      (tableStatements [("discovery", s.entries)]) := by
  have hlt := s.multicastPort.toNat_lt
  have hgroup : Reads (textSetting "multicast_group" s.multicastGroup) _ :=
    reads_textSetting (by decide) s.multicastGroup
  have hport : Reads (numberSetting "multicast_port" s.multicastPort.toNat) _ :=
    reads_numberSetting (by decide) (by omega)
  have hheartbeat : Reads (numberSetting "heartbeat_period_ms" s.heartbeatPeriodMs.toNat) _ :=
    reads_numberSetting (by decide) h.heartbeatPeriod
  have hpoll :
      Reads (numberSetting "interface_poll_period_ms" s.interfacePollPeriodMs.toNat) _ :=
    reads_numberSetting (by decide) h.pollPeriod
  have hbuffer : Reads (numberSetting "receive_buffer_size" s.receiveBufferSize.toNat) _ :=
    reads_numberSetting (by decide) h.receiveBuffer
  refine reads_tableText (by decide) ?_
  exact reads_cons hgroup (reads_cons hport (reads_cons hheartbeat (reads_cons hpoll
    (reads_cons hbuffer Toml.reads_nil))))

lemma reads_routing {s : RoutingSection} (h : s.Fits) :
    Reads (tableText "routing" [numberSetting "max_in_flight_calls" s.maxInFlightCalls.toNat])
      (tableStatements [("routing", s.entries)]) := by
  have hcalls : Reads (numberSetting "max_in_flight_calls" s.maxInFlightCalls.toNat) _ :=
    reads_numberSetting (by decide) h.maxInFlight
  exact reads_tableText (by decide) (reads_cons hcalls Toml.reads_nil)

/-- What is written for settings is read as the lines of all of them. -/
lemma reads_writeToml {c : Config} (h : c.Fits) : Reads c.writeToml
    (entryStatements [("log_level", .str c.logLevel)] ++ tableStatements c.tables) := by
  have hlevel : Reads (textSetting "log_level" c.logLevel) _ :=
    reads_textSetting (by decide) c.logLevel
  have hread := (((hlevel.append (reads_domain c.domain)).append (reads_rpc c.rpc)).append
    (reads_discovery h.discovery)).append (reads_routing h.routing)
  have hstatements : entryStatements [("log_level", .str c.logLevel)] ++ tableStatements c.tables
      = entryStatements [("log_level", .str c.logLevel)]
        ++ tableStatements [("domain", c.domain.entries)]
        ++ tableStatements [("rpc", c.rpc.entries)]
        ++ tableStatements [("discovery", c.discovery.entries)]
        ++ tableStatements [("routing", c.routing.entries)] := by
    simp [tables, tableStatements]
  rw [hstatements]
  exact hread

lemma nodup_rpc (s : RpcSection) : (s.entries.map Prod.fst).Nodup := by
  unfold RpcSection.entries
  split <;> simp

/-- The entries of the document that is written for settings. -/
theorem parse?_writeToml {c : Config} (h : c.Fits) :
    Toml.parse? (String.ofList c.writeToml) = some c.entries := by
  -- the document begins with the first letter of a key
  have hmark : Toml.skipMark c.writeToml = c.writeToml := rfl
  have htables : ∀ t ∈ c.tables, (t.2.map Prod.fst).Nodup := by
    have hrpc := nodup_rpc c.rpc
    simp [tables, DomainSection.entries, DiscoverySection.entries, RoutingSection.entries, hrpc]
  have hnames : ([("log_level", Toml.str c.logLevel)].map Prod.fst
      ++ c.tables.map Prod.fst).Nodup := by
    simp [tables]
  rw [Toml.parse?, String.toList_ofList, hmark]
  simp only [Option.bind_eq_bind, (reads_writeToml h).statements_eq, Option.bind_some]
  exact Toml.ofStatements_flat hnames htables

/-! ## Decoding -/

section record

variable {α β : Type} {name : String}

lemma assignEntries_cons {assign : String → Toml → α → Except Mismatch α} {v : Toml} {x y : α}
    {entries : List Toml.Entry} {result : Except Mismatch α} (h : assign name v x = .ok y)
    (hrest : Toml.assignEntries assign y entries = result) :
    Toml.assignEntries assign x ((name, v) :: entries) = result := by
  have hfold : Toml.assignEntries assign x ((name, v) :: entries)
      = (assign name v x).bind fun next => Toml.assignEntries assign next entries := rfl
  rw [hfold, h]
  exact hrest

/-- An entry whose value the decoder of its field accepts. -/
theorem fieldEntries_cons {r : Schema.Record α} {read : Found → Except Mismatch β}
    {put : β → α → α} (hfield : r.fields.find? (·.name == name) = some (.of name read put))
    {v : Toml} {b : β} (h : read v.found = .ok b) {x : α} {entries : List Toml.Entry}
    {result : Except Mismatch α}
    (hrest : Toml.assignEntries (fun name v => r.assign name v.found) (put b x) entries = result) :
    Toml.assignEntries (fun name v => r.assign name v.found) x ((name, v) :: entries)
      = result := by
  have hassign : r.assign name v.found x = .ok (put b x) := by
    rw [Schema.Record.assign, hfield]
    simp only [Schema.Field.of, h, Except.map]
  exact assignEntries_cons hassign hrest

end record

lemma flatRecord_domain (s : DomainSection) :
    Toml.flatRecord domainRecord (.table s.entries) = .ok s := rfl

lemma flatRecord_rpc (s : RpcSection) :
    Toml.flatRecord rpcRecord (.table s.entries) = .ok s := by
  obtain ⟨routerAddress, advertisePort⟩ := s
  cases advertisePort with
  | none => rfl
  | some port =>
    have hrouter : (Found.str routerAddress).asString = .ok routerAddress := rfl
    have hport : (Found.int port.toNat).asOptional Found.asWord16 = .ok (some port) := by
      have hword : (Found.int port.toNat).asWord16 = .ok port := Found.asWord16_eq_ok_iff.2 rfl
      change (Found.int port.toNat).asWord16.map some = _
      rw [hword]
      rfl
    refine fieldEntries_cons rfl hrouter ?_
    refine fieldEntries_cons rfl hport ?_
    rfl

lemma flatRecord_discovery (s : DiscoverySection) :
    Toml.flatRecord discoveryRecord (.table s.entries) = .ok s := by
  have hgroup : (Found.str s.multicastGroup).asString = .ok s.multicastGroup := rfl
  have hport : (Found.int s.multicastPort.toNat).asWord16 = .ok s.multicastPort :=
    Found.asWord16_eq_ok_iff.2 rfl
  have hheartbeat : (Found.int s.heartbeatPeriodMs.toNat).asWord64 = .ok s.heartbeatPeriodMs :=
    Found.asWord64_eq_ok_iff.2 rfl
  have hpoll :
      (Found.int s.interfacePollPeriodMs.toNat).asWord64 = .ok s.interfacePollPeriodMs :=
    Found.asWord64_eq_ok_iff.2 rfl
  have hbuffer : (Found.int s.receiveBufferSize.toNat).asCount = .ok s.receiveBufferSize :=
    Found.asCount_eq_ok_iff.2 rfl
  refine fieldEntries_cons rfl hgroup ?_
  refine fieldEntries_cons rfl hport ?_
  refine fieldEntries_cons rfl hheartbeat ?_
  refine fieldEntries_cons rfl hpoll ?_
  refine fieldEntries_cons rfl hbuffer ?_
  rfl

lemma flatRecord_routing (s : RoutingSection) :
    Toml.flatRecord routingRecord (.table s.entries) = .ok s := by
  have hcalls : (Found.int s.maxInFlightCalls.toNat).asCount = .ok s.maxInFlightCalls :=
    Found.asCount_eq_ok_iff.2 rfl
  refine fieldEntries_cons rfl hcalls ?_
  rfl

lemma assignEntry_name (part : Part) (v : Toml) (c : Config) :
    assignEntry part.name v c = assignPart part v c := by
  have hpart : Part.ofName? part.name = some part := by cases part <;> decide
  rw [assignEntry, hpart]

/-- One more part in front of others. -/
lemma partEntries_cons (part : Part) {v : Toml} {c c' : Config} {entries : List Toml.Entry}
    {result : Except Mismatch Config} (h : assignPart part v c = .ok c')
    (hrest : Toml.assignEntries assignEntry c' entries = result) :
    Toml.assignEntries assignEntry c ((part.name, v) :: entries) = result :=
  assignEntries_cons ((assignEntry_name part v c).trans h) hrest

/-- The entries of the document that is written for settings are decoded to them. -/
theorem ofToml_entries (c : Config) : ofToml c.entries = .ok c := by
  refine partEntries_cons .logLevel (by rfl) ?_
  refine partEntries_cons .domain (by rw [assignPart, flatRecord_domain]; rfl) ?_
  refine partEntries_cons .rpc (by rw [assignPart, flatRecord_rpc]; rfl) ?_
  refine partEntries_cons .discovery (by rw [assignPart, flatRecord_discovery]; rfl) ?_
  refine partEntries_cons .routing (by rw [assignPart, flatRecord_routing]; rfl) ?_
  rfl

/-- A configuration that fits is parsed from what is written for it. -/
lemma parseToml_writeToml {c : Config} (h : c.Fits) :
    parseToml (String.ofList c.writeToml) = .ok c := by
  rw [parseToml, parse?_writeToml h]
  simp only [ofToml_entries]

/-! ## Numbers that are read -/

section keeps

variable {α : Type} {P : α → Prop}

/-- What is kept with each entry is kept with all of them. -/
lemma assignEntries_keeps {assign : String → Toml → α → Except Mismatch α}
    (hassign : ∀ name v x y, v.Fits → P x → assign name v x = .ok y → P y)
    {entries : List Toml.Entry} (hentries : ∀ e ∈ entries, e.2.Fits) {x y : α} (hx : P x)
    (h : Toml.assignEntries assign x entries = .ok y) : P y := by
  induction entries generalizing x with
  | nil => rwa [← Except.ok.inj h]
  | cons entry entries ih =>
    obtain ⟨name, v⟩ := entry
    obtain ⟨hv, hmore⟩ := List.forall_mem_cons.1 hentries
    have hfold : Toml.assignEntries assign x ((name, v) :: entries)
        = assign name v x >>= fun next => Toml.assignEntries assign next entries := rfl
    rw [hfold] at h
    obtain ⟨next, hnext, hrest⟩ := of_bind h
    exact ih hmore (hassign name v x next hv hx hnext) hrest

/-- A record that has a property by default and keeps it with every field that is assigned. -/
structure Keeps (r : Schema.Record α) (P : α → Prop) : Prop where
  start : P r.start
  assign : ∀ field ∈ r.fields, ∀ v x y, v.Fits → P x → field.assign (Toml.found v) x = .ok y → P y

lemma Keeps.of_flatRecord {r : Schema.Record α} (hr : Keeps r P) {v : Toml} (hv : v.Fits) {x : α}
    (h : Toml.flatRecord r v = .ok x) : P x := by
  have hassign (name : String) (v : Toml) (x y : α) (hv : v.Fits) (hx : P x)
      (h : r.assign name v.found x = .ok y) : P y := by
    unfold Schema.Record.assign at h
    split at h
    · next field hfield => exact hr.assign field (List.mem_of_find?_eq_some hfield) v x y hv hx h
    · rwa [← Except.ok.inj h]
  cases hv with
  | table hentries => exact assignEntries_keeps hassign hentries hr.start h
  | arr hitems =>
    -- the items are paired with the names of the fields, as far as there are both
    refine assignEntries_keeps hassign (fun e he => ?_) hr.start h
    exact hitems _ (List.of_mem_zip he).2
  | moment _ =>
    rw [← Except.ok.inj h]
    exact hr.start
  | _ => exact absurd h (by simp [Toml.flatRecord])

end keeps

/-- A number that is read from a document is not too large for one. -/
lemma le_of_found {v : Toml} (h : v.Fits) {n : Nat} (hfound : v.found = .int n) :
    n ≤ 2 ^ 63 - 1 := by
  cases h with
  | int hn =>
    obtain rfl := Found.int.inj hfound
    have hmax := hn.2
    unfold Toml.maxInt at hmax
    omega
  | _ => exact absurd hfound (by simp [Toml.found])

/-- Reading a discovery section keeps its numbers within the bound. -/
lemma keeps_discovery : Keeps discoveryRecord DiscoverySection.Fits where
  start := ⟨by decide, by decide, by decide⟩
  assign := by
    intro field hfield v s s' hv hs h
    simp only [discoveryRecord, List.mem_cons, List.not_mem_nil, or_false] at hfield
    obtain rfl | rfl | rfl | rfl | rfl := hfield
    -- a number that is stored has been found in the value, and so it fits
    all_goals obtain ⟨b, hb, rfl⟩ := of_map h
    · exact ⟨hs.heartbeatPeriod, hs.pollPeriod, hs.receiveBuffer⟩
    · exact ⟨hs.heartbeatPeriod, hs.pollPeriod, hs.receiveBuffer⟩
    · exact ⟨le_of_found hv (Found.asWord64_eq_ok_iff.1 hb), hs.pollPeriod, hs.receiveBuffer⟩
    · exact ⟨hs.heartbeatPeriod, le_of_found hv (Found.asWord64_eq_ok_iff.1 hb), hs.receiveBuffer⟩
    · exact ⟨hs.heartbeatPeriod, hs.pollPeriod, le_of_found hv (Found.asCount_eq_ok_iff.1 hb)⟩

lemma keeps_routing : Keeps routingRecord RoutingSection.Fits where
  start := ⟨by decide⟩
  assign := by
    intro field hfield v s s' hv hs h
    obtain rfl := List.mem_singleton.1 hfield
    obtain ⟨b, hb, rfl⟩ := of_map h
    exact ⟨le_of_found hv (Found.asCount_eq_ok_iff.1 hb)⟩

lemma fits_default : Fits {} := ⟨keeps_discovery.start, keeps_routing.start⟩

lemma fits_of_assignPart {part : Part} {v : Toml} {c c' : Config} (hv : v.Fits) (hc : c.Fits)
    (h : assignPart part v c = .ok c') : c'.Fits := by
  cases part with
  | discovery =>
    obtain ⟨s, hs, rfl⟩ := of_map h
    exact ⟨keeps_discovery.of_flatRecord hv hs, hc.routing⟩
  | routing =>
    obtain ⟨s, hs, rfl⟩ := of_map h
    exact ⟨hc.discovery, keeps_routing.of_flatRecord hv hs⟩
  | _ =>
    obtain ⟨s, -, rfl⟩ := of_map h
    exact ⟨hc.discovery, hc.routing⟩

/-- TOML can hold the numbers of every configuration that is read. -/
theorem fits_of_parseToml {text : String} {c : Config} (h : parseToml text = .ok c) : c.Fits := by
  have hassign (name : String) (v : Toml) (c c' : Config) (hv : v.Fits) (hc : c.Fits)
      (h : assignEntry name v c = .ok c') : c'.Fits := by
    unfold assignEntry at h
    split at h
    · exact fits_of_assignPart hv hc h
    · rwa [← Except.ok.inj h]
  unfold parseToml at h
  split at h
  · exact absurd h (by simp)
  · next entries hentries =>
    split at h
    · next c' hc =>
      obtain rfl := Except.ok.inj h
      exact assignEntries_keeps hassign (Toml.fits_of_parse? hentries) fits_default hc
    · exact absurd h (by simp)

/-- A configuration that is loaded fits. -/
lemma fits_of_load {path : String} {content : Except FileFault (List UInt8)} {c : Config}
    (h : load path content = .ok c) : c.Fits := by
  unfold load at h
  split at h
  · exact absurd h (by simp)
  split at h
  · exact absurd h (by simp)
  split at h
  · exact absurd h (by simp)
  · next hparse =>
    obtain rfl := Except.ok.inj h
    exact fits_of_parseToml hparse

/-- A configuration that fits is loaded from what is written for it. -/
lemma load_writeToml {c : Config} (h : c.Fits) (path : String) :
    load path (.ok (Utf8.encode c.writeToml)) = .ok c := by
  simp only [load, Utf8.decode_encode, parseToml_writeToml h]

end Config

/-! ## Printing the settings of a command -/

namespace Cli

/-- The command that prints the settings of the file at `path` and puts nothing in. -/
def Options.showing (path : String) : Options := { config := some path, printConfig := true }

variable {read : String → Except FileFault (List UInt8)} {c : Config}

/-- The configuration under the options fits. -/
lemma fits_of_base {o : Options} (h : o.base read = .ok c) : c.Fits := by
  unfold Options.base at h
  split at h
  · rw [← Except.ok.inj h]
    exact Config.fits_default
  · split at h
    · next c' hload =>
      obtain rfl := Except.ok.inj h
      exact Config.fits_of_load hload
    · exact absurd h (by simp)

/-- A command has the settings of its base with its own put in, if they pass the check. -/
theorem toConfig_eq_ok_iff {o : Options} : o.toConfig read = .ok c ↔
    ∃ base, o.base read = .ok base ∧ c = o.override base ∧ c.validate = .ok () := by
  constructor
  · intro h
    obtain ⟨base, hbase, h⟩ := of_bind h
    dsimp only at h
    split at h
    · next hvalid =>
      obtain rfl := Except.ok.inj h
      exact ⟨base, hbase, rfl, hvalid⟩
    · exact absurd h (by simp)
  · rintro ⟨base, hbase, rfl, hvalid⟩
    rw [Options.toConfig, hbase]
    simp only [bind, Except.bind, hvalid]

/-- TOML can hold the numbers of all settings that a command may have. -/
lemma fits_of_toConfig {o : Options} (h : o.toConfig read = .ok c) : c.Fits := by
  obtain ⟨base, hbase, rfl, -⟩ := toConfig_eq_ok_iff.1 h
  have hfits := fits_of_base hbase
  exact ⟨hfits.discovery, hfits.routing⟩

/-- Settings that have been checked are those of the file that they are written to. -/
lemma toConfig_showing {path : String} (hfits : c.Fits) (hvalid : c.validate = .ok ())
    (hread : read path = .ok (Utf8.encode c.writeToml)) :
    (Options.showing path).toConfig read = .ok c := by
  have hbase : (Options.showing path).base read = .ok c := by
    simp only [Options.base, Options.showing, hread, Config.load_writeToml hfits]
  exact toConfig_eq_ok_iff.2 ⟨c, hbase, rfl, hvalid⟩

/-- A configuration that is to be printed is the output, and nothing else is done. -/
lemma plan_of_printConfig {arguments : List String} {env : String → Option String} {o : Options}
    {text : String} (ho : Options.read arguments env = .ok o) (hprint : o.printConfig = true)
    (hc : o.toConfig read = .ok c) (htext : c.renderToml = some text) :
    plan arguments env read = .done { exitCode := 0, stdout := text } := by
  rw [plan, ho]
  simp only [hc, hprint, if_true, printed, htext]

end Cli

/-- Settings can be written exactly if no number is larger than TOML can hold; what is written is
read back, and everything that is read can be written. So a command that has settings at all prints
them, and the document that it prints gives a command the same settings and is printed again. -/
theorem Config.roundTrip_of_renderToml (c : Config) :
    (c.renderToml.isSome = true ↔ c.Fits) ∧
    (∀ text, c.renderToml = some text → parseToml text = .ok c) ∧
    (∀ text, parseToml text = .ok c → c.Fits) ∧
    ∀ arguments env read o, Cli.Options.read arguments env = .ok o → o.toConfig read = .ok c →
      ∃ text, c.renderToml = some text ∧
        (o.printConfig = true →
          Cli.plan arguments env read = .done { exitCode := 0, stdout := text }) ∧
        ∀ path arguments' env' read', Cli.Options.read arguments' env' = .ok (.showing path) →
          read' path = .ok (Utf8.encode text.toList) →
          (Cli.Options.showing path).toConfig read' = .ok c ∧
          Cli.plan arguments' env' read' = .done { exitCode := 0, stdout := text } := by
  refine ⟨?_, ?_, fun text => fits_of_parseToml, ?_⟩
  · rw [Option.isSome_iff_exists]
    constructor
    · rintro ⟨text, h⟩
      exact (renderToml_eq_some_iff.1 h).1
    · exact fun h => ⟨_, renderToml_of_fits h⟩
  · intro text h
    obtain ⟨hfits, rfl⟩ := renderToml_eq_some_iff.1 h
    exact parseToml_writeToml hfits
  · intro arguments env read o ho hc
    have hfits := Cli.fits_of_toConfig hc
    obtain ⟨_, -, -, hvalid⟩ := Cli.toConfig_eq_ok_iff.1 hc
    have htext := renderToml_of_fits hfits
    refine ⟨_, htext, fun hprint => Cli.plan_of_printConfig ho hprint hc htext, ?_⟩
    intro path arguments' env' read' ho' hread
    rw [String.toList_ofList] at hread
    -- the settings have passed the check once, and nothing is put in that could change it
    have hc' := Cli.toConfig_showing hfits hvalid hread
    exact ⟨hc', Cli.plan_of_printConfig ho' rfl hc' htext⟩

namespace Config

/-- Settings whose texts take three kinds of quotes. -/
def quoted : Config :=
  { domain := ⟨"the \"west\"", "\\it's\n\x07"⟩, rpc := ⟨"127.0.0.1:8000", some 9100⟩ }

/-- The document that is written for them. -/
def quotedDocument : String :=
  "log_level = \"info\"\n\n[domain]\nname = 'the \"west\"'\nrealm = \"\"\"\n\\\\it's\n\\u0007\"\"\"\n"
    ++ "\n[rpc]\nrouter_address = \"127.0.0.1:8000\"\nadvertise_port = 9100\n\n[discovery]\n"
    ++ "multicast_group = \"239.0.0.1\"\nmulticast_port = 10984\nheartbeat_period_ms = 2000\n"
    ++ "interface_poll_period_ms = 2000\nreceive_buffer_size = 512\n\n[routing]\n"
    ++ "max_in_flight_calls = 64\n"

/-- A command line that has them. -/
def quotedArguments : List String :=
  ["--domain", "the \"west\"", "--realm=\\it's\n\x07", "--advertise-port", "9100", "--print-config"]

/-- What the command line says. -/
def quotedOptions : Cli.Options where
  domain := some "the \"west\""
  realm := some "\\it's\n\x07"
  advertisePort := some 9100
  printConfig := true

/-- A configuration with quotation marks in its texts is printed and loaded again. -/
theorem roundTrip_of_quoted : quoted.Fits ∧ quoted.renderToml = some quotedDocument ∧
    parseToml quotedDocument = .ok quoted ∧
    Cli.Options.read quotedArguments (fun _ => none) = .ok quotedOptions ∧
    quotedOptions.toConfig (fun _ => .error .notFound) = .ok quoted ∧
    Cli.plan quotedArguments (fun _ => none) (fun _ => .error .notFound)
      = .done { exitCode := 0, stdout := quotedDocument } ∧
    Cli.Options.read ["--config=printed.toml", "--print-config"] (fun _ => none)
      = .ok (.showing "printed.toml") ∧
    (Cli.Options.showing "printed.toml").toConfig
      (fun _ => .ok (Utf8.encode quotedDocument.toList)) = .ok quoted ∧
    Cli.plan ["--config=printed.toml", "--print-config"] (fun _ => none)
      (fun _ => .ok (Utf8.encode quotedDocument.toList))
      = .done { exitCode := 0, stdout := quotedDocument } := by
  have hread : Cli.Options.read quotedArguments (fun _ => none) = .ok quotedOptions :=
    Json.ok_of_toOption (by decide +kernel)
  have hdocument : quoted.renderToml = some quotedDocument := by decide +kernel
  have hvalid : quoted.validate = .ok () := by rfl
  have hconfig : quotedOptions.toConfig (fun _ => .error .notFound) = .ok quoted :=
    Cli.toConfig_eq_ok_iff.2 ⟨{}, rfl, rfl, hvalid⟩
  have hread' : Cli.Options.read ["--config=printed.toml", "--print-config"] (fun _ => none)
      = .ok (.showing "printed.toml") := Json.ok_of_toOption (by decide +kernel)
  obtain ⟨hsome, hparse, hfits, hprint⟩ := roundTrip_of_renderToml quoted
  obtain ⟨text, htext, hplan, hshow⟩ :=
    hprint _ (fun _ => none) (fun _ => .error .notFound) _ hread hconfig
  obtain rfl : text = quotedDocument := Option.some.inj (htext.symm.trans hdocument)
  obtain ⟨hconfig', hplan'⟩ := hshow "printed.toml" _ (fun _ => none)
    (fun _ => .ok (Utf8.encode quotedDocument.toList)) hread' rfl
  exact ⟨hfits _ (hparse _ htext), htext, hparse _ htext, hread, hconfig, hplan rfl, hread',
    hconfig', hplan'⟩

end Config
end Switchboard
