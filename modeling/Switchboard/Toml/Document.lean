import Switchboard.Toml.Value

/-!
# TOML documents

A document is a sequence of statements: entries, and headers that open the table to which the
entries behind them belong. Putting them together follows the rule that no table is defined twice:
a header may complete a table that other headers have only passed through, an entry with a dotted
key may add to tables that dotted keys have made, and nothing may add to a value.

* `Toml.ofStatements` is the table that a document stands for, or nothing if it breaks the rule.
-/

namespace Switchboard.Toml

/-- An entry: the keys that lead to its table, its own key and its value. -/
structure Definition where
  path : List String
  key : String
  value : Toml
deriving Repr

/-- A statement of a document. -/
inductive Statement
  | entry (definition : Definition)
  /-- The header of a table. -/
  | table (path : List String) (key : String)
  /-- The header of one more element of an array of tables. -/
  | element (path : List String) (key : String)
deriving Repr

/-- How a table has come about. -/
inductive Origin
  /-- A header leads through it. -/
  | passed
  /-- A dotted key leads through it. -/
  | dotted
  /-- It has its own header. -/
  | opened
deriving DecidableEq, Repr

/-- What stands under a key while a document is put together. -/
inductive Node
  | value (v : Toml)
  | table (origin : Origin) (entries : List (String × Node))
  /-- The elements of an array of tables, the last one in front. -/
  | array (last : List (String × Node)) (others : List Node)
deriving Repr, Inhabited

namespace Node

/-- Keys with what stands under them, in the order of their definition. -/
abbrev Entries := List (String × Node)

/-- What stands under a key. -/
def lookup (key : String) : Entries → Option Node
  | [] => none
  | (k, n) :: rest => if k = key then some n else lookup key rest

/-- Replaces what stands under a key. -/
def replace (key : String) (node : Node) (entries : Entries) : Entries :=
  entries.map fun (k, n) => (k, if k = key then node else n)

/-- Takes a key out. -/
def remove (key : String) (entries : Entries) : Entries := entries.filter (·.1 ≠ key)

mutual

/-- The value of a node. -/
def toToml : Node → Toml
  | value v => v
  | table _ entries => .table (entriesToToml entries)
  | array last others => .arr (elementsToToml [.table (entriesToToml last)] others)

/-- The values of entries. -/
def entriesToToml : List (String × Node) → List (String × Toml)
  | [] => []
  | (k, n) :: rest => (k, toToml n) :: entriesToToml rest

/-- The values of elements, of which the last ones stand in front, before those of `later`. -/
def elementsToToml (later : List Toml) : List Node → List Toml
  | [] => later
  | n :: rest => elementsToToml (toToml n :: later) rest

end

/-- Adds an entry to the table with the given entries. -/
def define (key : String) (v : Toml) : (path : List String) → Entries → Option Entries
  | [], entries =>
    if (lookup key entries).isSome then none else some (entries ++ [(key, .value v)])
  | k :: path, entries =>
    match lookup k entries with
    | none => (define key v path []).map fun sub => entries ++ [(k, .table .dotted sub)]
    | some (.table .dotted sub) =>
      (define key v path sub).map fun sub => replace k (.table .dotted sub) entries
    | some (.table .passed sub) =>
      if path = [] then none
      else (define key v path sub).map fun sub => replace k (.table .passed sub) entries
    | some (.array last others) =>
      if path = [] then none
      else (define key v path last).map fun last => replace k (.array last others) entries
    | some (.table .opened _) | some (.value _) => none

/-- Adds entries one after the other. -/
def defineAll (definitions : List Definition) (entries : Entries) : Option Entries :=
  definitions.foldlM (fun es d => define d.key d.value d.path es) entries

/-- Changes the entries of the table to which headers lead along a path. -/
def descend (change : Entries → Option Entries) : (path : List String) → Entries → Option Entries
  | [], entries => change entries
  | k :: path, entries =>
    match lookup k entries with
    | none => (descend change path []).map fun sub => entries ++ [(k, .table .passed sub)]
    | some (.table origin sub) =>
      (descend change path sub).map fun sub => replace k (.table origin sub) entries
    | some (.array last others) =>
      (descend change path last).map fun last => replace k (.array last others) entries
    | some (.value _) => none

/-- Opens the table of a key and fills it. -/
def openTable (key : String) (definitions : List Definition) (entries : Entries) :
    Option Entries :=
  match lookup key entries with
  | none =>
    (defineAll definitions []).map fun sub => entries ++ [(key, .table .opened sub)]
  | some (.table .passed sub) =>
    (defineAll definitions sub).map fun sub => remove key entries ++ [(key, .table .opened sub)]
  | _ => none

/-- Adds an element to the array of tables of a key and fills it. -/
def openElement (key : String) (definitions : List Definition) (entries : Entries) :
    Option Entries :=
  match lookup key entries with
  | none => (defineAll definitions []).map fun sub => entries ++ [(key, .array sub [])]
  | some (.array last others) =>
    (defineAll definitions []).map fun sub =>
      replace key (.array sub (.table .opened last :: others)) entries
  | _ => none

end Node

/-! ## Sections -/

/-- The entries that follow, up to the next header. -/
def leading : List Statement → List Definition
  | .entry d :: rest => d :: leading rest
  | _ => []

/-- Carries out the headers of a document, each with the entries behind it. -/
def openSections : List Statement → Node.Entries → Option Node.Entries
  | [], entries => some entries
  | .entry _ :: rest, entries => openSections rest entries
  | .table path key :: rest, entries => do
    openSections rest (← Node.descend (Node.openTable key (leading rest)) path entries)
  | .element path key :: rest, entries => do
    openSections rest (← Node.descend (Node.openElement key (leading rest)) path entries)

/-- The entries of the table that a document stands for. -/
def ofStatements (statements : List Statement) : Option (List Entry) := do
  let root ← Node.defineAll (leading statements) []
  return Node.entriesToToml (← openSections statements root)

/-- The entries of an inline table. -/
def ofDefinitions (definitions : List Definition) : Option (List Entry) :=
  (Node.defineAll definitions []).map Node.entriesToToml

end Switchboard.Toml
