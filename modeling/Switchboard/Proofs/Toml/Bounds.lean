import Mathlib.Tactic.Lemma
import Switchboard.Toml.Reader

/-!
# Whole numbers in TOML documents

A whole number that does not fit 64 bits with a sign is refused where its word is read. `Toml.Fits`
is carried from there through arrays and inline tables, through the tables that a document is put
together from, up to its entries: `fits_of_parse?`.
-/

namespace Switchboard
namespace Toml

/-- A whole number of 64 bits with a sign. -/
def IsFitting (n : Int) : Prop := minInt ≤ n ∧ n ≤ maxInt

/-- A value all of whose whole numbers fit. -/
inductive Fits : Toml → Prop
  | str (s : String) : Fits (.str s)
  | int {n : Int} (h : IsFitting n) : Fits (.int n)
  | float (x : Binary64) : Fits (.float x)
  | bool (b : Bool) : Fits (.bool b)
  | moment (text : String) : Fits (.moment text)
  | arr {items : List Toml} (h : ∀ v ∈ items, Fits v) : Fits (.arr items)
  | table {entries : List Entry} (h : ∀ e ∈ entries, Fits e.2) : Fits (.table entries)

/-- A node all of whose values fit. -/
inductive Node.Fits : Node → Prop
  | value {v : Toml} (h : v.Fits) : Node.Fits (.value v)
  | table {origin : Origin} {entries : Node.Entries} (h : ∀ e ∈ entries, Node.Fits e.2) :
      Node.Fits (.table origin entries)
  | array {last : Node.Entries} {others : List Node} (hlast : ∀ e ∈ last, Node.Fits e.2)
      (hothers : ∀ n ∈ others, Node.Fits n) : Node.Fits (.array last others)

/-- Entries all of whose nodes fit. -/
def Node.AllFit (entries : Node.Entries) : Prop := ∀ e ∈ entries, e.2.Fits

/-! ## Words -/

/-- A number that passes the check is within the bounds. -/
lemma isFitting_of_fitting {n m : Int} (h : fitting n = some m) : IsFitting m := by
  unfold fitting at h
  split at h
  · next hn => rwa [← Option.some.inj h]
  · exact absurd h (by simp)

/-- A number that is read is within the bounds. -/
lemma isFitting_of_int? {word : List Char} {n : Int} (h : int? word = some n) : IsFitting n := by
  unfold int? at h
  split at h
  all_goals
    simp only [Option.bind_eq_bind, Option.bind_eq_some_iff] at h
    obtain ⟨_, -, hfitting⟩ := h
    exact isFitting_of_fitting hfitting

/-- The numbers in a word are within the bounds. -/
lemma fits_of_ofWord? {word : List Char} {v : Toml} (h : ofWord? word = some v) : v.Fits := by
  unfold ofWord? at h
  split at h
  · rw [← Option.some.inj h]
    exact .bool true
  split at h
  · rw [← Option.some.inj h]
    exact .bool false
  split at h
  · rw [← Option.some.inj h]
    exact .moment _
  split at h
  · next n hint =>
    rw [← Option.some.inj h]
    exact .int (isFitting_of_int? hint)
  · obtain ⟨x, -, rfl⟩ := Option.map_eq_some_iff.1 h
    exact .float x

lemma fits_of_word {s rest : List Char} {v : Toml} (h : word s = some (v, rest)) : v.Fits := by
  unfold word at h
  dsimp only at h
  split at h
  · obtain ⟨rfl, -⟩ := Prod.mk.inj (Option.some.inj h)
    exact .moment _
  · simp only [Option.bind_eq_bind, Option.bind_eq_some_iff] at h
    obtain ⟨v', hv, hpair⟩ := h
    obtain ⟨rfl, -⟩ := Prod.mk.inj (Option.some.inj hpair)
    exact fits_of_ofWord? hv

/-! ## Tables -/

namespace Node

variable {entries after : Entries} {key : String}

lemma allFit_nil : AllFit [] := fun _ he => absurd he (by simp)

lemma AllFit.append (h : AllFit entries) {n : Node} (hn : n.Fits) :
    AllFit (entries ++ [(key, n)]) :=
  List.forall_mem_append.2 ⟨h, List.forall_mem_singleton.2 hn⟩

lemma AllFit.lookup (h : AllFit entries) {n : Node} (hn : Node.lookup key entries = some n) :
    n.Fits := by
  induction entries with
  | nil => exact absurd hn (by simp [Node.lookup])
  | cons entry rest ih =>
    obtain ⟨k, m⟩ := entry
    rw [Node.lookup] at hn
    split at hn
    · rw [← Option.some.inj hn]
      exact h _ List.mem_cons_self
    · exact ih (List.forall_mem_cons.1 h).2 hn

lemma AllFit.replace (h : AllFit entries) {n : Node} (hn : n.Fits) :
    AllFit (Node.replace key n entries) := by
  intro e he
  obtain ⟨⟨k, m⟩, hmem, rfl⟩ := List.mem_map.1 he
  dsimp only
  split
  · exact hn
  · exact h _ hmem

lemma AllFit.remove (h : AllFit entries) : AllFit (Node.remove key entries) :=
  fun e he => h e (List.mem_filter.1 he).1

lemma Fits.inner {origin : Origin} (h : (Node.table origin entries).Fits) : AllFit entries := by
  cases h with
  | table h => exact h

lemma Fits.last {others : List Node} (h : (Node.array entries others).Fits) : AllFit entries := by
  cases h with
  | array h => exact h

lemma Fits.withLast {others : List Node} (h : (Node.array entries others).Fits)
    (hafter : AllFit after) : (Node.array after others).Fits := by
  cases h with
  | array _ hothers => exact .array hafter hothers

/-- Adding a value that fits keeps all that fits. -/
lemma allFit_of_define {v : Toml} (hv : v.Fits) {path : List String}
    (h : define key v path entries = some after) (hentries : AllFit entries) : AllFit after := by
  induction path generalizing entries after with
  | nil =>
    rw [define] at h
    split at h
    · exact absurd h (by simp)
    · rw [← Option.some.inj h]
      exact hentries.append (.value hv)
  | cons k path ih =>
    rw [define] at h
    -- the path goes on in a new table, in one that is there, or in the last element of an array
    split at h
    · obtain ⟨sub, hsub, rfl⟩ := Option.map_eq_some_iff.1 h
      exact hentries.append (.table (ih hsub allFit_nil))
    · next hlookup =>
      obtain ⟨sub, hsub, rfl⟩ := Option.map_eq_some_iff.1 h
      exact hentries.replace (.table (ih hsub (hentries.lookup hlookup).inner))
    · next hlookup =>
      split at h
      · exact absurd h (by simp)
      · obtain ⟨sub, hsub, rfl⟩ := Option.map_eq_some_iff.1 h
        exact hentries.replace (.table (ih hsub (hentries.lookup hlookup).inner))
    · next hlookup =>
      split at h
      · exact absurd h (by simp)
      · obtain ⟨sub, hsub, rfl⟩ := Option.map_eq_some_iff.1 h
        have harray := hentries.lookup hlookup
        exact hentries.replace (harray.withLast (ih hsub harray.last))
    · exact absurd h (by simp)
    · exact absurd h (by simp)

/-- Definitions that fit make a table that does. -/
lemma allFit_of_defineAll {definitions : List Definition}
    (hdefinitions : ∀ d ∈ definitions, d.value.Fits)
    (h : defineAll definitions entries = some after) (hentries : AllFit entries) :
    AllFit after := by
  induction definitions generalizing entries with
  | nil => rwa [← Option.some.inj h]
  | cons d rest ih =>
    obtain ⟨hvalue, hmore⟩ := List.forall_mem_cons.1 hdefinitions
    rw [defineAll, List.foldlM_cons, Option.bind_eq_bind, Option.bind_eq_some_iff] at h
    obtain ⟨between, hd, hrest⟩ := h
    exact ih hmore hrest (allFit_of_define hvalue hd hentries)

/-- A change of one table that keeps all that fits does so wherever the table stands. -/
lemma allFit_of_descend {change : Entries → Option Entries}
    (hchange : ∀ entries after, change entries = some after → AllFit entries → AllFit after)
    {path : List String} (h : descend change path entries = some after)
    (hentries : AllFit entries) : AllFit after := by
  induction path generalizing entries after with
  | nil => exact hchange _ _ h hentries
  | cons k path ih =>
    rw [descend] at h
    split at h
    · obtain ⟨sub, hsub, rfl⟩ := Option.map_eq_some_iff.1 h
      exact hentries.append (.table (ih hsub allFit_nil))
    · next hlookup =>
      obtain ⟨sub, hsub, rfl⟩ := Option.map_eq_some_iff.1 h
      exact hentries.replace (.table (ih hsub (hentries.lookup hlookup).inner))
    · next hlookup =>
      obtain ⟨sub, hsub, rfl⟩ := Option.map_eq_some_iff.1 h
      have harray := hentries.lookup hlookup
      exact hentries.replace (harray.withLast (ih hsub harray.last))
    · exact absurd h (by simp)

/-- A header with definitions that fit makes a table that does. -/
lemma allFit_of_openTable {definitions : List Definition}
    (hdefinitions : ∀ d ∈ definitions, d.value.Fits)
    (h : openTable key definitions entries = some after) (hentries : AllFit entries) :
    AllFit after := by
  unfold openTable at h
  split at h
  · obtain ⟨sub, hsub, rfl⟩ := Option.map_eq_some_iff.1 h
    exact hentries.append (.table (allFit_of_defineAll hdefinitions hsub allFit_nil))
  · next hlookup =>
    obtain ⟨sub, hsub, rfl⟩ := Option.map_eq_some_iff.1 h
    have hfilled := allFit_of_defineAll hdefinitions hsub (hentries.lookup hlookup).inner
    exact hentries.remove.append (.table hfilled)
  · exact absurd h (by simp)

/-- An element with definitions that fit makes a table that does. -/
lemma allFit_of_openElement {definitions : List Definition}
    (hdefinitions : ∀ d ∈ definitions, d.value.Fits)
    (h : openElement key definitions entries = some after) (hentries : AllFit entries) :
    AllFit after := by
  unfold openElement at h
  split at h
  · obtain ⟨sub, hsub, rfl⟩ := Option.map_eq_some_iff.1 h
    have hfilled := allFit_of_defineAll hdefinitions hsub allFit_nil
    exact hentries.append (.array hfilled (by simp))
  · next last others hlookup =>
    obtain ⟨sub, hsub, rfl⟩ := Option.map_eq_some_iff.1 h
    have hfilled := allFit_of_defineAll hdefinitions hsub allFit_nil
    cases hentries.lookup hlookup with
    | array hlast hothers =>
      exact hentries.replace (.array hfilled (List.forall_mem_cons.2 ⟨.table hlast, hothers⟩))
  · exact absurd h (by simp)

/-! ### Values of nodes -/

mutual

lemma fits_toToml : (n : Node) → n.Fits → n.toToml.Fits
  | .value v, h => by
    cases h with
    | value hv => exact hv
  | .table _ entries, h => .table (fits_entriesToToml entries h.inner)
  | .array last others, h => by
    cases h with
    | array hlast hothers =>
      have hfirst : (Toml.table (entriesToToml last)).Fits := .table (fits_entriesToToml last hlast)
      exact .arr (fits_elementsToToml _ others (List.forall_mem_singleton.2 hfirst) hothers)

lemma fits_entriesToToml : (entries : Entries) → AllFit entries →
    ∀ e ∈ entriesToToml entries, e.2.Fits
  | [], _ => fun e he => absurd he (by simp [entriesToToml])
  | (_, n) :: rest, h => by
    obtain ⟨hn, hrest⟩ := List.forall_mem_cons.1 h
    rw [entriesToToml]
    exact List.forall_mem_cons.2 ⟨fits_toToml n hn, fits_entriesToToml rest hrest⟩

lemma fits_elementsToToml : (later : List Toml) → (others : List Node) →
    (∀ v ∈ later, v.Fits) → (∀ n ∈ others, n.Fits) → ∀ v ∈ elementsToToml later others, v.Fits
  | later, [], hlater, _ => hlater
  | later, n :: rest, hlater, hothers => by
    obtain ⟨hn, hrest⟩ := List.forall_mem_cons.1 hothers
    rw [elementsToToml]
    exact fits_elementsToToml _ rest (List.forall_mem_cons.2 ⟨fits_toToml n hn, hlater⟩) hrest

end

end Node

/-! ## Documents -/

/-- Definitions that fit make entries that do. -/
lemma fits_of_ofDefinitions {definitions : List Definition} {entries : List Entry}
    (hdefinitions : ∀ d ∈ definitions, d.value.Fits)
    (h : ofDefinitions definitions = some entries) : ∀ e ∈ entries, e.2.Fits := by
  obtain ⟨nodes, hnodes, rfl⟩ := Option.map_eq_some_iff.1 h
  exact Node.fits_entriesToToml nodes
    (Node.allFit_of_defineAll hdefinitions hnodes Node.allFit_nil)

/-- A statement whose value fits, if it has one. -/
def Statement.Fits : Statement → Prop
  | .entry d => d.value.Fits
  | _ => True

lemma fits_of_leading {statements : List Statement} (h : ∀ s ∈ statements, s.Fits) :
    ∀ d ∈ leading statements, d.value.Fits := by
  induction statements with
  | nil => simp [leading]
  | cons s rest ih =>
    obtain ⟨hs, hrest⟩ := List.forall_mem_cons.1 h
    cases s with
    | entry d => exact List.forall_mem_cons.2 ⟨hs, ih hrest⟩
    | table path key => simp [leading]
    | element path key => simp [leading]

/-- Sections that fit make a document that does. -/
lemma allFit_of_openSections {statements : List Statement} {entries after : Node.Entries}
    (hstatements : ∀ s ∈ statements, s.Fits) (h : openSections statements entries = some after)
    (hentries : Node.AllFit entries) : Node.AllFit after := by
  induction statements generalizing entries with
  | nil => rwa [← Option.some.inj h]
  | cons s rest ih =>
    obtain ⟨-, hrest⟩ := List.forall_mem_cons.1 hstatements
    have hleading := fits_of_leading hrest
    cases s with
    | entry d => exact ih hrest h hentries
    | table path key =>
      rw [openSections, Option.bind_eq_bind, Option.bind_eq_some_iff] at h
      obtain ⟨between, hopen, h⟩ := h
      refine ih hrest h (Node.allFit_of_descend (fun _ _ => ?_) hopen hentries)
      exact Node.allFit_of_openTable hleading
    | element path key =>
      rw [openSections, Option.bind_eq_bind, Option.bind_eq_some_iff] at h
      obtain ⟨between, hopen, h⟩ := h
      refine ih hrest h (Node.allFit_of_descend (fun _ _ => ?_) hopen hentries)
      exact Node.allFit_of_openElement hleading

/-- Statements that fit make a document that does. -/
lemma fits_of_ofStatements {statements : List Statement} {entries : List Entry}
    (hstatements : ∀ s ∈ statements, s.Fits) (h : ofStatements statements = some entries) :
    ∀ e ∈ entries, e.2.Fits := by
  simp only [ofStatements, Option.bind_eq_bind, Option.bind_eq_some_iff] at h
  obtain ⟨root, hroot, nodes, hnodes, hpair⟩ := h
  have hfit := Node.allFit_of_defineAll (fits_of_leading hstatements) hroot Node.allFit_nil
  rw [← Option.some.inj hpair]
  exact Node.fits_entriesToToml nodes (allFit_of_openSections hstatements hnodes hfit)

/-! ## Values -/

section read

variable {read : List Char → Option (Toml × List Char)} {s rest : List Char} {fuel : Nat}

lemma fits_of_arrayItems (hread : ∀ s v rest, read s = some (v, rest) → v.Fits) {vs : List Toml}
    (h : arrayItems read fuel s = some (vs, rest)) : ∀ v ∈ vs, v.Fits := by
  induction fuel generalizing s vs rest with
  | zero => exact absurd h (by simp [arrayItems])
  | succ fuel ih =>
    rw [arrayItems, Option.bind_eq_bind, Option.bind_eq_some_iff] at h
    obtain ⟨start, -, h⟩ := h
    split at h
    · obtain ⟨rfl, -⟩ := Prod.mk.inj (Option.some.inj h)
      simp
    · simp only [Option.bind_eq_bind, Option.bind_eq_some_iff] at h
      obtain ⟨⟨v, rest₁⟩, hv, next, -, h⟩ := h
      have hfits := hread _ v rest₁ hv
      split at h
      · obtain ⟨rfl, -⟩ := Prod.mk.inj (Option.some.inj h)
        exact List.forall_mem_singleton.2 hfits
      · simp only [Option.bind_eq_some_iff] at h
        obtain ⟨⟨ws, rest₂⟩, hws, hpair⟩ := h
        obtain ⟨rfl, rfl⟩ := Prod.mk.inj (Option.some.inj hpair)
        exact List.forall_mem_cons.2 ⟨hfits, ih hws⟩
      · exact absurd h (by simp)

lemma fits_of_definition (hread : ∀ s v rest, read s = some (v, rest) → v.Fits) {d : Definition}
    (h : definition read s = some (d, rest)) : d.value.Fits := by
  simp only [definition, Option.bind_eq_bind, Option.bind_eq_some_iff] at h
  obtain ⟨⟨⟨path, key⟩, rest₁⟩, -, rest₂, -, ⟨v, rest₃⟩, hv, hpair⟩ := h
  obtain ⟨rfl, -⟩ := Prod.mk.inj (Option.some.inj hpair)
  exact hread _ v rest₃ hv

lemma fits_of_inlineEntries (hread : ∀ s v rest, read s = some (v, rest) → v.Fits)
    {ds : List Definition} (h : inlineEntries read fuel s = some (ds, rest)) :
    ∀ d ∈ ds, d.value.Fits := by
  induction fuel generalizing s ds rest with
  | zero => exact absurd h (by simp [inlineEntries])
  | succ fuel ih =>
    rw [inlineEntries, Option.bind_eq_bind, Option.bind_eq_some_iff] at h
    obtain ⟨⟨d, rest₁⟩, hd, h⟩ := h
    have hfits := fits_of_definition hread hd
    dsimp only at h
    split at h
    · obtain ⟨rfl, -⟩ := Prod.mk.inj (Option.some.inj h)
      exact List.forall_mem_singleton.2 hfits
    · simp only [Option.bind_eq_bind, Option.bind_eq_some_iff] at h
      obtain ⟨⟨es, rest₂⟩, hes, hpair⟩ := h
      obtain ⟨rfl, -⟩ := Prod.mk.inj (Option.some.inj hpair)
      exact List.forall_mem_cons.2 ⟨hfits, ih hes⟩
    · exact absurd h (by simp)

lemma fits_of_inlineTable (hread : ∀ s v rest, read s = some (v, rest) → v.Fits) {v : Toml}
    (h : inlineTable read s = some (v, rest)) : v.Fits := by
  unfold inlineTable at h
  split at h
  · obtain ⟨rfl, -⟩ := Prod.mk.inj (Option.some.inj h)
    exact .table (by simp)
  · simp only [Option.bind_eq_bind, Option.bind_eq_some_iff] at h
    obtain ⟨⟨ds, rest₁⟩, hds, entries, hentries, hpair⟩ := h
    obtain ⟨rfl, -⟩ := Prod.mk.inj (Option.some.inj hpair)
    exact .table (fits_of_ofDefinitions (fits_of_inlineEntries hread hds) hentries)

end read

lemma fits_of_text {q : Char} {s rest : List Char} {v : Toml}
    (h : (Text.read q s).map (fun (cs, rest) => (Toml.str (String.ofList cs), rest))
      = some (v, rest)) : v.Fits := by
  obtain ⟨⟨cs, rest'⟩, -, hpair⟩ := Option.map_eq_some_iff.1 h
  obtain ⟨rfl, -⟩ := Prod.mk.inj hpair
  exact .str _

/-- Every value that is read fits. -/
lemma fits_of_value {levels : Nat} {s rest : List Char} {v : Toml}
    (h : value levels s = some (v, rest)) : v.Fits := by
  -- on the levels that may still be entered, by which arrays and inline tables read what is in them
  induction levels generalizing s v rest with
  | zero =>
    unfold value at h
    split at h
    · exact fits_of_text h
    · exact fits_of_text h
    · exact absurd h (by simp)
    · exact absurd h (by simp)
    · exact fits_of_word h
  | succ levels ih =>
    unfold value at h
    split at h
    · exact fits_of_text h
    · exact fits_of_text h
    · obtain ⟨⟨vs, rest'⟩, hvs, hpair⟩ := Option.map_eq_some_iff.1 h
      obtain ⟨rfl, -⟩ := Prod.mk.inj hpair
      exact .arr (fits_of_arrayItems (fun _ _ _ => ih) hvs)
    · exact fits_of_inlineTable (fun _ _ _ => ih) h
    · exact fits_of_word h

/-! ## Lines -/

lemma fits_of_header {s rest : List Char} {first : Statement}
    (h : header s = some (first, rest)) : first.Fits := by
  unfold header at h
  split at h
  · simp only [Option.bind_eq_bind, Option.bind_eq_some_iff] at h
    obtain ⟨⟨⟨path, key⟩, rest₁⟩, -, rest₂, -, rest₃, -, hpair⟩ := h
    obtain ⟨rfl, -⟩ := Prod.mk.inj (Option.some.inj hpair)
    trivial
  · simp only [Option.bind_eq_bind, Option.bind_eq_some_iff] at h
    obtain ⟨⟨⟨path, key⟩, rest₁⟩, -, rest₂, -, hpair⟩ := h
    obtain ⟨rfl, -⟩ := Prod.mk.inj (Option.some.inj hpair)
    trivial

/-- Every statement that is read fits. -/
lemma fits_of_statement {s rest : List Char} {first : Statement}
    (h : statement s = some (first, rest)) : first.Fits := by
  unfold statement at h
  split at h
  · exact fits_of_header h
  · obtain ⟨⟨d, rest'⟩, hd, hpair⟩ := Option.map_eq_some_iff.1 h
    obtain ⟨rfl, -⟩ := Prod.mk.inj hpair
    exact fits_of_definition (fun _ _ _ => fits_of_value) hd

/-- All statements of a text fit. -/
lemma fits_of_statements {fuel : Nat} {s : List Char} {read : List Statement}
    (h : statements fuel s = some read) : ∀ t ∈ read, t.Fits := by
  induction fuel generalizing s read with
  | zero => exact absurd h (by simp [statements])
  | succ fuel ih =>
    rw [statements] at h
    split at h
    · rw [← Option.some.inj h]
      simp
    · split at h
      · simp only [Option.bind_eq_bind, Option.bind_eq_some_iff] at h
        obtain ⟨rest, -, h⟩ := h
        exact ih h
      · simp only [Option.bind_eq_bind, Option.bind_eq_some_iff] at h
        obtain ⟨⟨first, rest⟩, hfirst, rest', -, more, hmore, hread⟩ := h
        rw [← Option.some.inj hread]
        exact List.forall_mem_cons.2 ⟨fits_of_statement hfirst, ih hmore⟩

/-- The whole numbers of a document fit 64 bits with a sign. -/
theorem fits_of_parse? {text : String} {entries : List Entry} (h : parse? text = some entries) :
    ∀ e ∈ entries, e.2.Fits := by
  simp only [parse?, Option.bind_eq_bind, Option.bind_eq_some_iff] at h
  obtain ⟨read, hread, hentries⟩ := h
  exact fits_of_ofStatements (fits_of_statements hread) hentries

end Toml
end Switchboard
