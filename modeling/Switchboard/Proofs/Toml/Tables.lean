import Mathlib.Tactic.Lemma
import Switchboard.Toml.Document

/-!
# Documents of flat tables

A document whose entries have single keys and whose headers have single names stands for the table
of its entries and its tables, if no key comes twice in one table (`ofStatements_flat`).
-/

namespace Switchboard.Toml

/-- A table with its name. -/
abbrev NamedTable := String × List Entry

/-- Entries with single keys as definitions. -/
def definitions (entries : List Entry) : List Definition :=
  entries.map fun (key, v) => ⟨[], key, v⟩

/-- Entries with single keys as nodes. -/
def nodes (entries : List Entry) : Node.Entries := entries.map fun (key, v) => (key, .value v)

/-- Entries with single keys as statements. -/
def entryStatements (entries : List Entry) : List Statement := (definitions entries).map .entry

/-- Tables as statements, each behind its header. -/
def tableStatements (tables : List NamedTable) : List Statement :=
  tables.flatMap fun (name, entries) => .table [] name :: entryStatements entries

/-! ## Definitions -/

lemma Node.lookup_eq_none_iff {key : String} {entries : Node.Entries} :
    Node.lookup key entries = none ↔ key ∉ entries.map Prod.fst := by
  induction entries with
  | nil => simp [Node.lookup]
  | cons entry rest ih =>
    obtain ⟨k, n⟩ := entry
    by_cases h : k = key
    · simp [Node.lookup, h]
    · simp [Node.lookup, h, ih, Ne.symm h]

lemma keys_nodes (entries : List Entry) :
    (nodes entries).map Prod.fst = entries.map Prod.fst := by
  simp [nodes, Function.comp_def]

/-- Entries with different keys are added at the end. -/
lemma defineAll_definitions {entries : List Entry} {before : Node.Entries}
    (h : (before.map Prod.fst ++ entries.map Prod.fst).Nodup) :
    Node.defineAll (definitions entries) before = some (before ++ nodes entries) := by
  induction entries generalizing before with
  | nil => simp [Node.defineAll, definitions, nodes]
  | cons entry rest ih =>
    obtain ⟨key, v⟩ := entry
    have hnew : Node.lookup key before = none := by
      rw [Node.lookup_eq_none_iff]
      exact fun hmem => (List.nodup_append.1 h).2.2 _ hmem _ List.mem_cons_self rfl
    have hdefine : Node.define key v [] before = some (before ++ [(key, .value v)]) := by
      rw [Node.define, hnew]
      rfl
    have hkeys : ((before ++ [(key, Node.value v)]).map Prod.fst ++ rest.map Prod.fst).Nodup := by
      simpa using h
    have hrest := ih hkeys
    have hstep : Node.defineAll (definitions ((key, v) :: rest)) before
        = (Node.define key v [] before).bind (Node.defineAll (definitions rest)) := rfl
    rw [hstep, hdefine, Option.bind_some, hrest, List.append_assoc]
    rfl

/-! ## Sections -/

lemma leading_entryStatements (entries : List Entry) (rest : List Statement) :
    leading (entryStatements entries ++ rest) = definitions entries ++ leading rest := by
  induction entries with
  | nil => rfl
  | cons entry entries ih => exact congrArg (_ :: ·) ih

/-- Tables begin with a header, so that nothing leads. -/
lemma leading_tableStatements (tables : List NamedTable) :
    leading (tableStatements tables) = [] := by
  cases tables <;> rfl

lemma openSections_entryStatements (entries : List Entry) (rest : List Statement)
    (before : Node.Entries) :
    openSections (entryStatements entries ++ rest) before = openSections rest before := by
  induction entries with
  | nil => rfl
  | cons entry entries ih => exact ih

/-- Tables as nodes. -/
def tableNodes (tables : List NamedTable) : Node.Entries :=
  tables.map fun (name, entries) => (name, .table .opened (nodes entries))

/-- Tables with different names are added at the end. -/
lemma openSections_tableStatements {tables : List NamedTable} {before : Node.Entries}
    (h : (before.map Prod.fst ++ tables.map Prod.fst).Nodup)
    (hentries : ∀ t ∈ tables, (t.2.map Prod.fst).Nodup) :
    openSections (tableStatements tables) before = some (before ++ tableNodes tables) := by
  -- on the tables: each header opens a new one, which its own entries fill up to the next header
  induction tables generalizing before with
  | nil => simp [openSections, tableStatements, tableNodes]
  | cons table rest ih =>
    obtain ⟨name, entries⟩ := table
    have hsplit : tableStatements ((name, entries) :: rest)
        = .table [] name :: (entryStatements entries ++ tableStatements rest) := rfl
    have hleading : leading (entryStatements entries ++ tableStatements rest)
        = definitions entries := by
      rw [leading_entryStatements, leading_tableStatements, List.append_nil]
    have hnew : Node.lookup name before = none := by
      rw [Node.lookup_eq_none_iff]
      exact fun hmem => (List.nodup_append.1 h).2.2 _ hmem _ List.mem_cons_self rfl
    have hfill : Node.defineAll (definitions entries) [] = some (nodes entries) :=
      defineAll_definitions (by simpa using hentries _ List.mem_cons_self)
    have hopen : Node.descend (Node.openTable name (definitions entries)) [] before
        = some (before ++ [(name, .table .opened (nodes entries))]) := by
      rw [Node.descend, Node.openTable, hnew]
      dsimp only
      rw [hfill, Option.map_some]
    have hnames : ((before ++ [(name, Node.table .opened (nodes entries))]).map Prod.fst
        ++ rest.map Prod.fst).Nodup := by
      simpa using h
    have hrest := ih hnames fun t ht => hentries t (List.mem_cons_of_mem _ ht)
    rw [hsplit, openSections, hleading, hopen]
    simp only [Option.bind_eq_bind, Option.bind_some]
    rw [openSections_entryStatements, hrest, List.append_assoc]
    rfl

/-! ## Documents -/

lemma entriesToToml_append (entries more : Node.Entries) :
    Node.entriesToToml (entries ++ more)
      = Node.entriesToToml entries ++ Node.entriesToToml more := by
  induction entries with
  | nil => rfl
  | cons entry entries ih =>
    rw [List.cons_append, Node.entriesToToml, ih]
    rfl

lemma entriesToToml_nodes (entries : List Entry) :
    Node.entriesToToml (nodes entries) = entries := by
  induction entries with
  | nil => rfl
  | cons entry entries ih => exact congrArg (entry :: ·) ih

lemma entriesToToml_tableNodes (tables : List NamedTable) :
    Node.entriesToToml (tableNodes tables)
      = tables.map fun (name, entries) => (name, .table entries) := by
  induction tables with
  | nil => rfl
  | cons table tables ih =>
    obtain ⟨name, entries⟩ := table
    have hcons : Node.entriesToToml (tableNodes ((name, entries) :: tables))
        = (name, .table (Node.entriesToToml (nodes entries)))
          :: Node.entriesToToml (tableNodes tables) := rfl
    rw [hcons, entriesToToml_nodes, ih]
    rfl

/-- A document of flat tables stands for its entries and its tables. -/
theorem ofStatements_flat {entries : List Entry} {tables : List NamedTable}
    (h : (entries.map Prod.fst ++ tables.map Prod.fst).Nodup)
    (hentries : ∀ t ∈ tables, (t.2.map Prod.fst).Nodup) :
    ofStatements (entryStatements entries ++ tableStatements tables)
      = some (entries ++ tables.map fun (name, entries) => (name, .table entries)) := by
  have hleading : leading (entryStatements entries ++ tableStatements tables)
      = definitions entries := by
    rw [leading_entryStatements, leading_tableStatements, List.append_nil]
  have hroot : Node.defineAll (definitions entries) [] = some (nodes entries) :=
    defineAll_definitions (by simpa using (List.nodup_append.1 h).1)
  have hsections : openSections (tableStatements tables) (nodes entries)
      = some (nodes entries ++ tableNodes tables) :=
    openSections_tableStatements (by rwa [keys_nodes]) hentries
  rw [ofStatements, hleading, hroot]
  simp only [Option.bind_eq_bind, Option.bind_some]
  rw [openSections_entryStatements, hsections, Option.bind_some, entriesToToml_append,
    entriesToToml_nodes, entriesToToml_tableNodes]
  rfl

end Switchboard.Toml
