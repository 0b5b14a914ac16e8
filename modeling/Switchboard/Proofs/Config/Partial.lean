import Mathlib.Data.List.Nodup
import Switchboard.Proofs.Config.RoundTrip
import Switchboard.Proofs.Toml.Additions

/-!
# Documents with a part of the settings

The document that is written for a configuration may lose any of its entries and tables, and may be
given entries and tables whose names are not known. What is left is read as the configuration that
has the settings that are left, and its defaults elsewhere.

* `Config.pieces` are the entries and headers of a document, each with its path. `remaining` is the
  document without those that are gone, `keeping` the configuration without their settings.
* `reads_remaining` says which statements are left.
* `section_of_whole` decodes what is left of a section, and `ofToml_of_whole` what is left of a
  document, whatever has been added to it.
* `keeping_of_renderToml` puts this together.
-/

namespace Switchboard

open Toml (NamedTable Reads entryStatements tableStatements nodes contents)

/-! ## Settings that are left -/

section keeping

variable (keep : String → Bool)

/-- The section with the given settings, and defaults elsewhere. -/
def DomainSection.keeping (s : DomainSection) : DomainSection where
  name := if keep "name" then s.name else ({} : DomainSection).name
  realm := if keep "realm" then s.realm else ({} : DomainSection).realm

/-- The section with the given settings, and defaults elsewhere. -/
def RpcSection.keeping (s : RpcSection) : RpcSection where
  routerAddress :=
    if keep "router_address" then s.routerAddress else ({} : RpcSection).routerAddress
  advertisePort :=
    if keep "advertise_port" then s.advertisePort else ({} : RpcSection).advertisePort

/-- The section with the given settings, and defaults elsewhere. -/
def DiscoverySection.keeping (s : DiscoverySection) : DiscoverySection where
  multicastGroup :=
    if keep "multicast_group" then s.multicastGroup else ({} : DiscoverySection).multicastGroup
  multicastPort :=
    if keep "multicast_port" then s.multicastPort else ({} : DiscoverySection).multicastPort
  heartbeatPeriodMs :=
    if keep "heartbeat_period_ms" then s.heartbeatPeriodMs
    else ({} : DiscoverySection).heartbeatPeriodMs
  interfacePollPeriodMs :=
    if keep "interface_poll_period_ms" then s.interfacePollPeriodMs
    else ({} : DiscoverySection).interfacePollPeriodMs
  receiveBufferSize :=
    if keep "receive_buffer_size" then s.receiveBufferSize
    else ({} : DiscoverySection).receiveBufferSize

/-- The section with the given settings, and defaults elsewhere. -/
def RoutingSection.keeping (s : RoutingSection) : RoutingSection where
  maxInFlightCalls :=
    if keep "max_in_flight_calls" then s.maxInFlightCalls
    else ({} : RoutingSection).maxInFlightCalls

end keeping

namespace Config

/-- Whether a piece of the document is left: neither the piece nor its whole table is gone. -/
def kept (gone : List String → Bool) (path : List String) : Bool :=
  !gone path && !gone (path.take 1)

variable (gone : List String → Bool)

/-- The configuration with the settings that are left, and defaults elsewhere. -/
def keeping (c : Config) : Config where
  logLevel := if kept gone ["log_level"] then c.logLevel else ({} : Config).logLevel
  domain := c.domain.keeping fun key => kept gone ["domain", key]
  rpc := c.rpc.keeping fun key => kept gone ["rpc", key]
  discovery := c.discovery.keeping fun key => kept gone ["discovery", key]
  routing := c.routing.keeping fun key => kept gone ["routing", key]

/-- The entries in front of all tables. -/
def top (c : Config) : List Toml.Entry := [("log_level", .str c.logLevel)]

/-- The entries in front of all tables that are left. -/
def keptTop (c : Config) : List Toml.Entry := c.top.filter fun e => kept gone [e.1]

/-- A table with its entries that are left. -/
def keptEntries (t : NamedTable) : NamedTable := (t.1, t.2.filter fun e => kept gone [t.1, e.1])

/-- The tables that are left, each with its entries that are left. -/
def keptTables (c : Config) : List NamedTable :=
  (c.tables.filter fun t => kept gone [t.1]).map (keptEntries gone)

/-! ## The pieces of the document -/

/-- The value of a setting, which is a text or a number, as it is written. -/
def valueText : Toml → List Char
  | .str s => Toml.Text.write s.toList
  | .int n => Nat.toDigits 10 n.toNat
  | _ => []

/-- A setting as it is written. -/
def entryText (e : Toml.Entry) : List Char := setting e.1 (valueText e.2)

/-- The header and the entries of a table, each with the path to it. -/
def tablePieces (t : NamedTable) : List (List String × List Char) :=
  ([t.1], tableText t.1 []) :: t.2.map fun e => ([t.1, e.1], entryText e)

/-- The entries and headers of a document, each with the path to it. -/
def pieces (top : List Toml.Entry) (tables : List NamedTable) : List (List String × List Char) :=
  top.map (fun e => ([e.1], entryText e)) ++ tables.flatMap tablePieces

/-- The document without the pieces that are gone. -/
def remaining (c : Config) : List Char :=
  ((pieces c.top c.tables).filter fun p => kept gone p.1).flatMap Prod.snd

/-- The pieces make up the document. -/
lemma writeToml_eq (c : Config) : c.writeToml = (pieces c.top c.tables).flatMap Prod.snd := by
  obtain ⟨logLevel, domain, ⟨routerAddress, advertisePort⟩, discovery, routing⟩ := c
  cases advertisePort <;>
    simp [writeToml, pieces, tablePieces, top, tables, DomainSection.entries, RpcSection.entries,
      DiscoverySection.entries, RoutingSection.entries, entryText, valueText, textSetting,
      numberSetting, tableText]

variable {gone}

/-- A section is kept where one of its entries is. -/
lemma kept_of_entry {name key : String} (h : kept gone [name, key] = true) :
    kept gone [name] = true := by
  simp only [kept, Bool.and_eq_true] at h ⊢
  exact ⟨h.2, h.2⟩

/-- What is left of a section that is kept. -/
lemma filter_tablePieces {t : NamedTable} (h : kept gone [t.1] = true) :
    (tablePieces t).filter (fun p => kept gone p.1) = tablePieces (keptEntries gone t) := by
  have hhead : (tablePieces t).filter (fun p => kept gone p.1)
      = ([t.1], tableText t.1 []) ::
        (t.2.map fun e => ([t.1, e.1], entryText e)).filter fun p => kept gone p.1 :=
    List.filter_cons_of_pos h
  rw [hhead, List.filter_map]
  rfl

/-- No entry outlives its table. -/
lemma filter_tablePieces_of_gone {t : NamedTable} (h : kept gone [t.1] ≠ true) :
    (tablePieces t).filter (fun p => kept gone p.1) = [] := by
  rw [List.filter_eq_nil_iff]
  intro p hp hkept
  rcases List.mem_cons.1 hp with rfl | hmem
  · exact h hkept
  · obtain ⟨e, -, rfl⟩ := List.mem_map.1 hmem
    exact h (kept_of_entry hkept)

/-- What is left of the pieces are the pieces of what is left. -/
lemma filter_pieces (c : Config) : (pieces c.top c.tables).filter (fun p => kept gone p.1)
    = pieces (c.keptTop gone) (c.keptTables gone) := by
  rw [pieces, pieces, keptTop, keptTables, List.filter_append, List.filter_map]
  refine congrArg (_ ++ ·) ?_
  induction c.tables with
  | nil => rfl
  | cons t tables ih =>
    rw [List.flatMap_cons, List.filter_append, ih]
    by_cases ht : kept gone [t.1] = true
    · have htables : (t :: tables).filter (fun t => kept gone [t.1])
          = t :: tables.filter fun t => kept gone [t.1] := List.filter_cons_of_pos ht
      rw [filter_tablePieces ht, htables, List.map_cons, List.flatMap_cons]
    · have htables : (t :: tables).filter (fun t => kept gone [t.1])
          = tables.filter fun t => kept gone [t.1] := List.filter_cons_of_neg ht
      rw [filter_tablePieces_of_gone ht, htables, List.nil_append]

/-- What remains of a document is written like a document. -/
lemma remaining_eq (gone : List String → Bool) (c : Config) : c.remaining gone
    = (pieces (c.keptTop gone) (c.keptTables gone)).flatMap Prod.snd := by
  rw [remaining, filter_pieces]

/-! ## Reading what is left -/

/-- A setting that is read as it is written. -/
def IsRead (e : Toml.Entry) : Prop := Reads (entryText e) (entryStatements [e])

lemma isRead_str {key : String} (h : Toml.IsBare key) (s : String) : IsRead (key, .str s) :=
  reads_textSetting h s

lemma isRead_int {key : String} (h : Toml.IsBare key) {n : Nat} (hn : n ≤ 2 ^ 63 - 1) :
    IsRead (key, .int n) := reads_numberSetting h hn

/-- Entries are read back in their order. -/
lemma reads_entries {entries : List Toml.Entry} (h : ∀ e ∈ entries, IsRead e) :
    Reads (entries.map entryText).flatten (entryStatements entries) := by
  induction entries with
  | nil => exact Toml.reads_nil
  | cons e entries ih =>
    exact reads_cons (h e List.mem_cons_self) (ih fun x hx => h x (List.mem_cons_of_mem _ hx))

/-- Tables are read back in their order. -/
lemma reads_tables {tables : List NamedTable}
    (h : ∀ t ∈ tables, Toml.IsBare t.1 ∧ ∀ e ∈ t.2, IsRead e) :
    Reads (tables.flatMap fun t => tableText t.1 (t.2.map entryText)) (tableStatements tables) := by
  induction tables with
  | nil => exact Toml.reads_nil
  | cons t tables ih =>
    obtain ⟨hname, hentries⟩ := h t List.mem_cons_self
    have hsplit : tableStatements (t :: tables)
        = tableStatements [t] ++ tableStatements tables := by
      simp [tableStatements]
    rw [hsplit]
    exact (reads_tableText hname (reads_entries hentries)).append
      (ih fun x hx => h x (List.mem_cons_of_mem _ hx))

/-- Every setting is read as it is written, if TOML can hold its number. -/
lemma isRead_of_fits {c : Config} (h : c.Fits) : (∀ e ∈ c.top, IsRead e) ∧
    ∀ t ∈ c.tables, Toml.IsBare t.1 ∧ ∀ e ∈ t.2, IsRead e := by
  have hport := c.discovery.multicastPort.toNat_lt
  constructor
  · simp only [top, List.forall_mem_singleton]
    exact isRead_str (by decide) _
  · simp only [tables, List.forall_mem_cons]
    refine ⟨⟨by decide, ?_⟩, ⟨by decide, ?_⟩, ⟨by decide, ?_⟩, ⟨by decide, ?_⟩, by simp⟩
    · simp only [DomainSection.entries, List.forall_mem_cons]
      exact ⟨isRead_str (by decide) _, isRead_str (by decide) _, by simp⟩
    · simp only [RpcSection.entries, List.forall_mem_cons]
      refine ⟨isRead_str (by decide) _, ?_⟩
      cases c.rpc.advertisePort with
      | none => simp
      | some port =>
        have hlt := port.toNat_lt
        simp only [List.forall_mem_singleton]
        exact isRead_int (by decide) (by omega)
    · simp only [DiscoverySection.entries, List.forall_mem_cons]
      exact ⟨isRead_str (by decide) _, isRead_int (by decide) (by omega),
        isRead_int (by decide) h.discovery.heartbeatPeriod,
        isRead_int (by decide) h.discovery.pollPeriod,
        isRead_int (by decide) h.discovery.receiveBuffer, by simp⟩
    · simp only [RoutingSection.entries, List.forall_mem_singleton]
      exact isRead_int (by decide) h.routing.maxInFlight

lemma flatMap_pieces (top : List Toml.Entry) (tables : List NamedTable) :
    (pieces top tables).flatMap Prod.snd = (top.map entryText).flatten
      ++ tables.flatMap fun t => tableText t.1 (t.2.map entryText) := by
  rw [pieces, List.flatMap_append, List.flatMap_map, List.flatMap_assoc]
  refine congr (congrArg _ (List.flatMap_def ..)) (List.flatMap_congr fun t _ => ?_)
  simp [tablePieces, tableText, List.flatMap_def, Function.comp_def]

/-- What is left of the document is read as the statements of what is left. -/
theorem reads_remaining {c : Config} (h : c.Fits) (gone : List String → Bool) :
    Reads (c.remaining gone)
      (entryStatements (c.keptTop gone) ++ tableStatements (c.keptTables gone)) := by
  obtain ⟨htop, htables⟩ := isRead_of_fits h
  rw [remaining_eq, flatMap_pieces]
  refine (reads_entries fun e he => htop e (List.mem_of_mem_filter he)).append
    (reads_tables fun t ht => ?_)
  obtain ⟨x, hx, rfl⟩ := List.mem_map.1 ht
  obtain ⟨hname, hentries⟩ := htables x (List.mem_of_mem_filter hx)
  exact ⟨hname, fun e he => hentries e (List.mem_of_mem_filter he)⟩

/-- It does not begin with a mark. -/
lemma skipMark_remaining (gone : List String → Bool) (c : Config) :
    Toml.skipMark (c.remaining gone) = c.remaining gone := by
  rw [remaining_eq, flatMap_pieces]
  cases htop : c.keptTop gone with
  | cons e rest =>
    have hmem : e ∈ c.top := List.mem_of_mem_filter (htop ▸ List.mem_cons_self)
    obtain rfl := List.mem_singleton.1 hmem
    obtain ⟨more, hmore⟩ : ∃ more, entryText ("log_level", .str c.logLevel) = 'l' :: more := by
      simp [entryText, setting]
    rw [List.map_cons, List.flatten_cons, hmore]
    rfl
  | nil => cases c.keptTables gone <;> rfl

/-! ## Decoding a section -/

section fields

variable {α β : Type}

/-- An entry of a known field, if it is left. -/
lemma keptEntries_cons {r : Schema.Record α} {name : String} {read : Found → Except Mismatch β}
    {put : β → α → α} (hfield : r.fields.find? (·.name == name) = some (.of name read put))
    {v : Toml} {b : β} (h : read v.found = .ok b) {keep : String → Bool} {x y : α}
    (hy : y = if keep name then put b x else x) {entries : List Toml.Entry}
    {result : Except Mismatch α}
    (hrest : Toml.assignEntries (fun name v => r.assign name v.found) y
      (entries.filter fun e => keep e.1) = result) :
    Toml.assignEntries (fun name v => r.assign name v.found) x
      (((name, v) :: entries).filter fun e => keep e.1) = result := by
  by_cases hk : keep name = true
  · have hfilter : ((name, v) :: entries).filter (fun e => keep e.1)
        = (name, v) :: entries.filter fun e => keep e.1 := List.filter_cons_of_pos hk
    rw [if_pos hk] at hy
    rw [hfilter]
    exact fieldEntries_cons hfield h (hy ▸ hrest)
  · have hfilter : ((name, v) :: entries).filter (fun e => keep e.1)
        = entries.filter fun e => keep e.1 := List.filter_cons_of_neg hk
    rw [if_neg hk] at hy
    rw [hfilter]
    exact hy ▸ hrest

/-- Entries that a record does not know are passed over. -/
lemma assignEntries_filter (r : Schema.Record α) (x : α) (entries : List Toml.Entry) :
    Toml.assignEntries (fun name v => r.assign name v.found) x entries
      = Toml.assignEntries (fun name v => r.assign name v.found) x
          (entries.filter fun e => decide (e.1 ∈ r.names)) := by
  induction entries generalizing x with
  | nil => rfl
  | cons e entries ih =>
    have hfold : ∀ l, Toml.assignEntries (fun name v => r.assign name v.found) x (e :: l)
        = (r.assign e.1 e.2.found x).bind fun y =>
            Toml.assignEntries (fun name v => r.assign name v.found) y l := fun _ => rfl
    by_cases he : e.1 ∈ r.names
    · rw [List.filter_cons_of_pos (by simpa using he), hfold, hfold]
      exact congrArg _ (funext ih)
    · have hnone : r.fields.find? (·.name == e.1) = none := by
        rw [List.find?_eq_none]
        intro field hfield heq
        exact he (List.mem_map.2 ⟨field, hfield, by simpa using heq⟩)
      rw [List.filter_cons_of_neg (by simpa using he), hfold, Schema.Record.assign, hnone]
      exact ih x

end fields

lemma assign_domain (s : DomainSection) (keep : String → Bool) :
    Toml.assignEntries (fun name v => domainRecord.assign name v.found) {}
      (s.entries.filter fun e => keep e.1) = .ok (s.keeping keep) := by
  have hname : (Found.str s.name).asString = .ok s.name := rfl
  have hrealm : (Found.str s.realm).asString = .ok s.realm := rfl
  refine keptEntries_cons rfl hname (y := { name := (s.keeping keep).name }) ?_ ?_
  · cases h : keep "name" <;> simp [DomainSection.keeping, h]
  refine keptEntries_cons rfl hrealm (y := s.keeping keep) ?_ rfl
  cases h : keep "realm" <;> simp [DomainSection.keeping, h]

lemma assign_rpc (s : RpcSection) (keep : String → Bool) :
    Toml.assignEntries (fun name v => rpcRecord.assign name v.found) {}
      (s.entries.filter fun e => keep e.1) = .ok (s.keeping keep) := by
  have hrouter : (Found.str s.routerAddress).asString = .ok s.routerAddress := rfl
  refine keptEntries_cons rfl hrouter (y := { routerAddress := (s.keeping keep).routerAddress })
    ?_ ?_
  · cases h : keep "router_address" <;> simp [RpcSection.keeping, h]
  cases hport : s.advertisePort with
  | none =>
    -- the default is not to have a port either
    simp only [RpcSection.keeping, hport, ite_self]
    rfl
  | some port =>
    have hread : (Found.int port.toNat).asOptional Found.asWord16 = .ok (some port) := by
      change (Found.int port.toNat).asWord16.map some = _
      rw [Found.asWord16_eq_ok_iff.2 rfl]
      rfl
    refine keptEntries_cons rfl hread (y := s.keeping keep) ?_ rfl
    cases h : keep "advertise_port" <;> simp [RpcSection.keeping, hport, h]

lemma assign_discovery (s : DiscoverySection) (keep : String → Bool) :
    Toml.assignEntries (fun name v => discoveryRecord.assign name v.found) {}
      (s.entries.filter fun e => keep e.1) = .ok (s.keeping keep) := by
  have hgroup : (Found.str s.multicastGroup).asString = .ok s.multicastGroup := rfl
  have hport : (Found.int s.multicastPort.toNat).asWord16 = .ok s.multicastPort :=
    Found.asWord16_eq_ok_iff.2 rfl
  have hheartbeat : (Found.int s.heartbeatPeriodMs.toNat).asWord64 = .ok s.heartbeatPeriodMs :=
    Found.asWord64_eq_ok_iff.2 rfl
  have hpoll :
      (Found.int s.interfacePollPeriodMs.toNat).asWord64 = .ok s.interfacePollPeriodMs :=
    Found.asWord64_eq_ok_iff.2 rfl
  have hbuffer : (Found.int s.receiveBufferSize.toNat).asCount = .ok s.receiveBufferSize :=
    Found.asCount_eq_ok_iff.2 rfl
  -- what has been read after each field
  let first : DiscoverySection := { multicastGroup := (s.keeping keep).multicastGroup }
  let second : DiscoverySection := { first with multicastPort := (s.keeping keep).multicastPort }
  let third : DiscoverySection :=
    { second with heartbeatPeriodMs := (s.keeping keep).heartbeatPeriodMs }
  let fourth : DiscoverySection :=
    { third with interfacePollPeriodMs := (s.keeping keep).interfacePollPeriodMs }
  refine keptEntries_cons rfl hgroup (y := first) ?_ ?_
  · cases h : keep "multicast_group" <;> simp [first, DiscoverySection.keeping, h]
  refine keptEntries_cons rfl hport (y := second) ?_ ?_
  · cases h : keep "multicast_port" <;> simp [first, second, DiscoverySection.keeping, h]
  refine keptEntries_cons rfl hheartbeat (y := third) ?_ ?_
  · cases h : keep "heartbeat_period_ms" <;>
      simp [first, second, third, DiscoverySection.keeping, h]
  refine keptEntries_cons rfl hpoll (y := fourth) ?_ ?_
  · cases h : keep "interface_poll_period_ms" <;>
      simp [first, second, third, fourth, DiscoverySection.keeping, h]
  refine keptEntries_cons rfl hbuffer (y := s.keeping keep) ?_ rfl
  cases h : keep "receive_buffer_size" <;>
    simp [first, second, third, fourth, DiscoverySection.keeping, h]

lemma assign_routing (s : RoutingSection) (keep : String → Bool) :
    Toml.assignEntries (fun name v => routingRecord.assign name v.found) {}
      (s.entries.filter fun e => keep e.1) = .ok (s.keeping keep) := by
  have hcalls : (Found.int s.maxInFlightCalls.toNat).asCount = .ok s.maxInFlightCalls :=
    Found.asCount_eq_ok_iff.2 rfl
  refine keptEntries_cons rfl hcalls (y := s.keeping keep) ?_ rfl
  cases h : keep "max_in_flight_calls" <;> simp [RoutingSection.keeping, h]

/-! ## Decoding a document -/

/-- The names of the settings of a part that is a section. -/
def Part.fields? : Part → Option (List String)
  | logLevel => none
  | domain => some domainRecord.names
  | rpc => some rpcRecord.names
  | discovery => some discoveryRecord.names
  | routing => some routingRecord.names

/-- The names of all settings and sections. -/
def names : Toml.Names where
  entries := [Part.logLevel.name]
  tables name := (Part.ofName? name).bind Part.fields?
  apart := by decide

lemma tables_name (part : Part) : names.tables part.name = part.fields? := by
  cases part <;> rfl

/-- A configuration with one part of another. -/
def take (c : Config) (part : Part) (x : Config) : Config :=
  match part with
  | .logLevel => { x with logLevel := c.logLevel }
  | .domain => { x with domain := c.domain }
  | .rpc => { x with rpc := c.rpc }
  | .discovery => { x with discovery := c.discovery }
  | .routing => { x with routing := c.routing }

/-- Parts are taken over independently of one another. -/
lemma take_take (c x : Config) (part other : Part) :
    c.take part (c.take other x) = c.take other (c.take part x) := by
  cases part <;> cases other <;> rfl

lemma take_self (c x : Config) (part : Part) : c.take part (c.take part x) = c.take part x := by
  cases part <;> rfl

/-- A configuration with all its parts from another is the other. -/
lemma eq_of_take {c x : Config} (h : ∀ part, c.take part x = x) : x = c := by
  calc x = c.take .logLevel (c.take .domain (c.take .rpc (c.take .discovery
        (c.take .routing x)))) := by
        rw [h .routing, h .discovery, h .rpc, h .domain, h .logLevel]
    _ = c := rfl

/-- A configuration whose parts are taken from another, unless they are its own already. -/
lemma foldl_take {c x : Config} {parts : List Part}
    (h : ∀ part, part ∈ parts ∨ c.take part x = x) :
    parts.foldl (fun x part => c.take part x) x = c := by
  induction parts generalizing x with
  | nil => exact eq_of_take fun part => (h part).resolve_left List.not_mem_nil
  | cons first parts ih =>
    refine ih fun part => ?_
    rcases h part with hmem | hx
    · rcases List.mem_cons.1 hmem with rfl | hmem
      · exact .inr (take_self c x part)
      · exact .inl hmem
    · refine .inr ?_
      rw [take_take, hx]

/-- Entries each of which gives a configuration its part of another, or nothing. -/
lemma assignEntries_take {c : Config} {entries : List Toml.Entry}
    (h : ∀ e ∈ entries, ∀ x, assignEntry e.1 e.2 x = .ok (match Part.ofName? e.1 with
      | some part => c.take part x
      | none => x)) (x : Config) :
    Toml.assignEntries assignEntry x entries = .ok
      ((entries.filterMap fun e => Part.ofName? e.1).foldl (fun x part => c.take part x) x) := by
  induction entries generalizing x with
  | nil => rfl
  | cons e entries ih =>
    have hrest := ih fun e' he' => h e' (List.mem_cons_of_mem _ he')
    refine assignEntries_cons (h e List.mem_cons_self x) ((hrest _).trans ?_)
    rw [List.filterMap_cons]
    cases Part.ofName? e.1 <;> rfl

lemma entriesToToml_eq (es : Toml.Node.Entries) :
    Toml.Node.entriesToToml es = es.map fun e => (e.1, e.2.toToml) := by
  induction es with
  | nil => rfl
  | cons e es ih => exact congrArg (_ :: ·) ih

lemma filter_entriesToToml (P : String → Bool) (es : Toml.Node.Entries) :
    (Toml.Node.entriesToToml es).filter (fun e => P e.1)
      = Toml.Node.entriesToToml (es.filter fun e => P e.1) := by
  rw [entriesToToml_eq, entriesToToml_eq, List.filter_map]
  rfl

/-- A section is decoded from its known entries, whatever else it has. -/
lemma flatRecord_of_beside {α : Type} {r : Schema.Record α} {own : List Toml.Entry}
    {x : Option Toml.Node} {n : Toml.Node} (b : Toml.Beside r.names own x (some n)) {y : α}
    (h : Toml.assignEntries (fun name v => r.assign name v.found) r.start own = .ok y) :
    Toml.flatRecord r n.toToml = .ok y := by
  cases b with
  | @table _ es es' origin i =>
    change Toml.assignEntries (fun name v => r.assign name v.found) r.start
      (Toml.Node.entriesToToml es') = .ok y
    rw [assignEntries_filter, filter_entriesToToml fun k => decide (k ∈ r.names), i.own,
      Toml.entriesToToml_nodes, h]

/-- What is left of a table's entries, if anything is. -/
lemma contents_keptTables (gone : List String → Bool) (c : Config) (name : String) :
    contents name (c.keptTables gone)
      = (contents name c.tables).filter fun e => kept gone [name, e.1] := by
  rw [keptTables]
  induction c.tables with
  | nil => rfl
  | cons t tables ih =>
    obtain ⟨x, entries⟩ := t
    have hcons : ∀ (l : List Toml.Entry) (more : List NamedTable), contents name ((x, l) :: more)
        = if name = x then l else contents name more := fun l more => by
      rw [contents, List.lookup_cons]
      by_cases hx : name = x
      · simp [hx]
      · have hbeq : (name == x) = false := beq_false_of_ne hx
        rw [hbeq, if_neg hx]
        rfl
    rw [hcons]
    by_cases hk : kept gone [x] = true
    · have hfilter : ((x, entries) :: tables).filter (fun t => kept gone [t.1])
          = (x, entries) :: tables.filter fun t => kept gone [t.1] := List.filter_cons_of_pos hk
      rw [hfilter, List.map_cons, keptEntries, hcons, ih]
      split
      · next hx => rw [hx]
      · rfl
    · have hfilter : ((x, entries) :: tables).filter (fun t => kept gone [t.1])
          = tables.filter fun t => kept gone [t.1] := List.filter_cons_of_neg hk
      rw [hfilter, ih]
      split
      · next hx =>
        -- no entry outlives its table
        subst hx
        have hnone (l : List Toml.Entry) : (l.filter fun e => kept gone [name, e.1]) = [] :=
          List.filter_eq_nil_iff.2 fun e _ he => hk (kept_of_entry he)
        rw [hnone, hnone]
      · rfl

lemma ofName?_eq_some_iff {name : String} {part : Part} :
    Part.ofName? name = some part ↔ name = part.name := by
  constructor
  · intro h
    have hname := List.find?_some h
    exact (beq_iff_eq.1 hname).symm
  · rintro rfl
    cases part <;> decide

section whole

variable {c : Config} {es es' : Toml.Node.Entries}
  (w : Toml.Whole names (c.keptTop gone) (c.keptTables gone) es es')
include w

/-- What stands under the name of a section is decoded to what is left of it, and without it nothing
is left. -/
theorem section_of_whole {α : Type} {r : Schema.Record α} (part : Part) {own : List Toml.Entry}
    (hfields : part.fields? = some r.names) {y : α}
    (h : Toml.assignEntries (fun name v => r.assign name v.found) r.start
      (own.filter fun e => kept gone [part.name, e.1]) = .ok y)
    (hown : contents part.name c.tables = own) :
    (∀ n, Toml.Node.lookup part.name es' = some n → Toml.flatRecord r n.toToml = .ok y) ∧
      (Toml.Node.lookup part.name es' = none → y = r.start) := by
  have hb := w.beside part.name r.names ((tables_name part).trans hfields)
  rw [contents_keptTables, hown] at hb
  constructor
  · intro n hn
    rw [hn] at hb
    exact flatRecord_of_beside hb h
  · intro hnone
    rw [hnone] at hb
    generalize (own.filter fun e => kept gone [part.name, e.1]) = left at hb h
    generalize Toml.Node.lookup part.name es = x at hb
    cases hb with
    | absent => exact (Except.ok.inj h).symm

/-- What stands under the name of a part is decoded to what is left of it, and without it nothing is
left. -/
lemma part_of_whole (part : Part) :
    (∀ n, Toml.Node.lookup part.name es' = some n →
      ∀ x, assignPart part n.toToml x = .ok ((c.keeping gone).take part x)) ∧
    (Toml.Node.lookup part.name es' = none → (c.keeping gone).take part {} = {}) := by
  cases part with
  | logLevel =>
    -- the one entry that is not in a section
    have hown := w.own Part.logLevel.name List.mem_cons_self
    by_cases hk : kept gone ["log_level"] = true
    · have htop : c.keptTop gone = [("log_level", .str c.logLevel)] := List.filter_cons_of_pos hk
      have hlevel : (c.keeping gone).logLevel = c.logLevel := if_pos hk
      rw [htop] at hown
      constructor
      · intro n hn x
        obtain rfl := Option.some.inj (hn.symm.trans hown)
        rw [take, hlevel]
        rfl
      · intro hnone
        exact absurd (hnone.symm.trans hown) (by simp [nodes, Toml.Node.lookup, Part.name])
    · have htop : c.keptTop gone = [] := List.filter_cons_of_neg hk
      have hlevel : (c.keeping gone).logLevel = ({} : Config).logLevel := if_neg hk
      rw [htop] at hown
      constructor
      · intro n hn
        exact absurd (hn.symm.trans hown) (by simp [nodes, Toml.Node.lookup])
      · intro _
        rw [take, hlevel]
  -- the sections are all decoded by one lemma
  | domain =>
    obtain ⟨hfound, habsent⟩ := section_of_whole w .domain (r := domainRecord) rfl
      (assign_domain c.domain fun key => kept gone ["domain", key]) rfl
    refine ⟨fun n hn x => ?_, fun hnone => ?_⟩
    · rw [assignPart, hfound n hn]
      rfl
    · exact congrArg (fun domain => ({ domain } : Config)) (habsent hnone)
  | rpc =>
    obtain ⟨hfound, habsent⟩ := section_of_whole w .rpc (r := rpcRecord) rfl
      (assign_rpc c.rpc fun key => kept gone ["rpc", key]) rfl
    refine ⟨fun n hn x => ?_, fun hnone => ?_⟩
    · rw [assignPart, hfound n hn]
      rfl
    · exact congrArg (fun rpc => ({ rpc } : Config)) (habsent hnone)
  | discovery =>
    obtain ⟨hfound, habsent⟩ := section_of_whole w .discovery (r := discoveryRecord) rfl
      (assign_discovery c.discovery fun key => kept gone ["discovery", key]) rfl
    refine ⟨fun n hn x => ?_, fun hnone => ?_⟩
    · rw [assignPart, hfound n hn]
      rfl
    · exact congrArg (fun discovery => ({ discovery } : Config)) (habsent hnone)
  | routing =>
    obtain ⟨hfound, habsent⟩ := section_of_whole w .routing (r := routingRecord) rfl
      (assign_routing c.routing fun key => kept gone ["routing", key]) rfl
    refine ⟨fun n hn x => ?_, fun hnone => ?_⟩
    · rw [assignPart, hfound n hn]
      rfl
    · exact congrArg (fun routing => ({ routing } : Config)) (habsent hnone)

/-- Every entry of the document gives a configuration what is left of its part, or nothing. -/
lemma assignEntry_of_whole {e : Toml.Entry} (he : e ∈ Toml.Node.entriesToToml es') (x : Config) :
    assignEntry e.1 e.2 x = .ok (match Part.ofName? e.1 with
      | some part => (c.keeping gone).take part x
      | none => x) := by
  obtain ⟨k, v⟩ := e
  have hnode : ∃ n, Toml.Node.lookup k es' = some n ∧ n.toToml = v := by
    rw [entriesToToml_eq] at he
    obtain ⟨⟨k', n⟩, hmem, heq⟩ := List.mem_map.1 he
    obtain ⟨rfl, rfl⟩ := Prod.mk.inj heq
    exact ⟨n, Toml.lookup_of_mem w.nodup' hmem, rfl⟩
  obtain ⟨n, hn, rfl⟩ := hnode
  rw [assignEntry]
  cases hpart : Part.ofName? k with
  | none => rfl
  | some part =>
    obtain rfl := ofName?_eq_some_iff.1 hpart
    exact (part_of_whole w part).1 n hn x

/-- A document with what is left of a configuration is decoded to that, whatever else is in it. -/
theorem ofToml_of_whole : ofToml (Toml.Node.entriesToToml es') = .ok (c.keeping gone) := by
  rw [ofToml, assignEntries_take fun e he => assignEntry_of_whole w he]
  refine congrArg _ (foldl_take fun part => ?_)
  cases hn : Toml.Node.lookup part.name es' with
  | none => exact .inr ((part_of_whole w part).2 hn)
  | some n =>
    refine .inl (List.mem_filterMap.2 ⟨(part.name, n.toToml), ?_, ofName?_eq_some_iff.2 rfl⟩)
    rw [entriesToToml_eq]
    exact List.mem_map.2 ⟨_, Toml.mem_of_lookup hn, rfl⟩

end whole

/-! ## Documents -/

/-- The schema knows the settings of every section that is left. -/
lemma knows_keptTables (gone : List String → Bool) (c : Config) :
    ∀ t ∈ c.keptTables gone, names.Knows t := by
  have hkeys : ∀ t ∈ c.tables, ∃ fields, names.tables t.1 = some fields ∧ fields.Nodup ∧
      (t.2.map Prod.fst).Sublist fields := by
    simp only [tables, List.forall_mem_cons]
    refine ⟨⟨domainRecord.names, rfl, by decide, .refl _⟩, ⟨rpcRecord.names, rfl, by decide, ?_⟩,
      ⟨discoveryRecord.names, rfl, by decide, .refl _⟩,
      ⟨routingRecord.names, rfl, by decide, .refl _⟩, by simp⟩
    rw [RpcSection.entries]
    cases c.rpc.advertisePort with
    | none => exact List.Sublist.cons_cons _ (List.nil_sublist _)
    | some port => exact .refl _
  intro t ht
  obtain ⟨x, hx, rfl⟩ := List.mem_map.1 ht
  obtain ⟨fields, hf, hn, hsub⟩ := hkeys x (List.mem_of_mem_filter hx)
  exact Toml.knows_of_sublist hf hn ((List.filter_sublist.map _).trans hsub)

/-- Every table is kept once. -/
lemma nodup_keptTables (gone : List String → Bool) (c : Config) :
    ((c.keptTables gone).map Prod.fst).Nodup := by
  have hnames : (c.tables.map Prod.fst).Nodup := by
    have hparts : c.tables.map Prod.fst = ["domain", "rpc", "discovery", "routing"] := rfl
    rw [hparts]
    decide
  rw [keptTables, List.map_map]
  exact hnames.sublist (List.filter_sublist.map _)

/-- A document with what is left of a configuration, and more that is not known. -/
lemma parseToml_of_draft {c : Config} {d : Toml.Draft} (hentries : d.entries = c.keptTop gone)
    (htables : d.tables = c.keptTables gone) (hadded : ∀ path ∈ d.added, names.Foreign path)
    (hothers : (Toml.ofStatements d.others.statements).isSome = true) {text : String}
    (htext : Toml.lines? text = some d.statements) : parseToml text = .ok (c.keeping gone) := by
  have htop : (c.keptTop gone).Sublist c.top := List.filter_sublist
  have hnodup : ((c.keptTop gone).map Prod.fst).Nodup :=
    List.Nodup.sublist (htop.map _) (List.nodup_singleton "log_level")
  have hknown : ∀ e ∈ c.keptTop gone, e.1 ∈ names.entries := fun e he => by
    obtain rfl := List.mem_singleton.1 (htop.subset he)
    exact List.mem_singleton.2 rfl
  obtain ⟨es, es', w, hdocument⟩ := Toml.exists_of_additions hadded (hentries ▸ hnodup)
    (hentries ▸ hknown) (htables ▸ nodup_keptTables gone c) (htables ▸ knows_keptTables gone c)
    hothers
  rw [hentries, htables] at w
  have hparse : Toml.parse? text = some (Toml.Node.entriesToToml es') := by
    rw [Toml.parse?_eq, htext, Option.bind_some, hdocument]
  rw [parseToml, hparse]
  simp only [ofToml_of_whole w]

/-- What remains of a document is read as its statements. -/
lemma lines?_remaining {c : Config} (h : c.Fits) (gone : List String → Bool) :
    Toml.lines? (String.ofList (c.remaining gone))
      = some (Toml.Draft.plain (c.keptTop gone) (c.keptTables gone)).statements := by
  rw [Toml.statements_plain]
  exact Toml.lines?_of_reads (reads_remaining h gone) (skipMark_remaining gone c)

/-- The document that is written for a configuration may lose any of its entries and tables: what is
left is read as the configuration with the settings that are left, and its defaults elsewhere. The
same holds of every text that has the same entries and headers and more besides whose names are not
known, in front of all tables, in the sections, or as further tables, if what has been added makes a
document with the headers of the sections. -/
theorem keeping_of_renderToml {c : Config} {text : String} (h : c.renderToml = some text)
    (gone : List String → Bool) :
    text = String.ofList ((pieces c.top c.tables).flatMap Prod.snd) ∧
    Toml.lines? (String.ofList (c.remaining gone))
      = some (Toml.Draft.plain (c.keptTop gone) (c.keptTables gone)).statements ∧
    parseToml (String.ofList (c.remaining gone)) = .ok (c.keeping gone) ∧
    ∀ d : Toml.Draft, d.entries = c.keptTop gone → d.tables = c.keptTables gone →
      (∀ path ∈ d.added, names.Foreign path) →
      (Toml.ofStatements d.others.statements).isSome = true →
      ∀ text', Toml.lines? text' = some d.statements → parseToml text' = .ok (c.keeping gone) := by
  obtain ⟨hfits, rfl⟩ := renderToml_eq_some_iff.1 h
  have hlines := lines?_remaining hfits gone
  refine ⟨congrArg _ (writeToml_eq c), hlines, ?_, fun d hentries htables hadded hothers text' =>
    parseToml_of_draft hentries htables hadded hothers⟩
  exact parseToml_of_draft (Toml.entries_plain _ _) (Toml.tables_plain _ _)
    (by simp [Toml.added_plain]) (Toml.isSome_others_plain _ _ (nodup_keptTables gone c)) hlines

/-- Settings of which a name and a port are to be left. -/
def west : Config :=
  { logLevel := "debug", domain := ⟨"west", "upper"⟩, rpc := ⟨"[::1]:8001", some 9100⟩ }

/-- The other entries and tables of their document. -/
def dispensable (path : List String) : Bool :=
  path ∉ [["domain"], ["domain", "name"], ["rpc"], ["rpc", "advertise_port"]]

/-- What is left, with more in it. -/
def extendedText : String :=
  "note = \"n\"\n[domain]\nname = \"west\" # here\ncolour = [1, 2]\n[domain.sub]\nname = 5\n"
    ++ "[rpc]\nshape.a = 1\nadvertise_port = 9100\n[[extra]]\nlog_level = 3\n"

/-- The same as statements. -/
def extended : Toml.Draft where
  top := [.added ⟨[], "note", .str "n"⟩]
  blocks :=
    [.known "domain" [.known "name" (.str "west"), .added ⟨[], "colour", .arr [.int 1, .int 2]⟩],
      .table ["domain"] "sub" [⟨[], "name", .int 5⟩],
      .known "rpc" [.added ⟨["shape"], "a", .int 1⟩, .known "advertise_port" (.int 9100)],
      .element [] "extra" [⟨[], "log_level", .int 3⟩]]

set_option maxRecDepth 20000 in
lemma lines?_extendedText : Toml.lines? extendedText = some extended.statements := by rfl

/-- Nothing that has been added is known. -/
lemma foreign_extended : ∀ path ∈ extended.added, names.Foreign path := by
  have hadded : extended.added = [["note"], ["domain", "colour"], ["domain", "sub"],
    ["rpc", "shape", "a"], ["extra"]] := rfl
  rw [hadded]
  simp only [List.forall_mem_cons]
  exact ⟨.outside (by decide) (by decide), .inside rfl (by decide), .inside rfl (by decide),
    .inside rfl (by decide), .outside (by decide) (by decide), by simp⟩

/-- A name and a port are kept, and the rest has its defaults. -/
theorem keeping_of_west :
    west.renderToml = some (String.ofList west.writeToml) ∧
    String.ofList (west.remaining dispensable)
      = "\n[domain]\nname = \"west\"\n\n[rpc]\nadvertise_port = 9100\n" ∧
    west.keeping dispensable
      = { domain := { name := "west" }, rpc := { advertisePort := some 9100 } } ∧
    parseToml "\n[domain]\nname = \"west\"\n\n[rpc]\nadvertise_port = 9100\n"
      = .ok (west.keeping dispensable) ∧
    extended.entries = west.keptTop dispensable ∧ extended.tables = west.keptTables dispensable ∧
    (∀ path ∈ extended.added, names.Foreign path) ∧
    (Toml.ofStatements extended.others.statements).isSome = true ∧
    Toml.lines? extendedText = some extended.statements ∧
    parseToml extendedText = .ok (west.keeping dispensable) := by
  have hrender : west.renderToml = some (String.ofList west.writeToml) :=
    renderToml_of_fits ⟨⟨by decide, by decide, by decide⟩, ⟨by decide⟩⟩
  have hremaining : String.ofList (west.remaining dispensable)
      = "\n[domain]\nname = \"west\"\n\n[rpc]\nadvertise_port = 9100\n" := by
    decide +kernel
  obtain ⟨-, -, hparse, hmore⟩ := keeping_of_renderToml hrender dispensable
  rw [hremaining] at hparse
  exact ⟨hrender, hremaining, by decide, hparse, rfl, rfl, foreign_extended, rfl,
    lines?_extendedText, hmore extended rfl rfl foreign_extended rfl _ lines?_extendedText⟩

end Config
end Switchboard
