import Mathlib.Data.List.Basic
import Switchboard.Proofs.Toml.Changes
import Switchboard.Proofs.Toml.Lines

/-!
# Documents with more in them than a schema knows

A schema knows some entries and some tables by their names, and in each of these tables some
entries. A document may hold more than that. Whether what is added makes a document, and what it
stands for, does not depend on the known entries beside it, nor do they depend on it.

* `Names.Foreign` says of a path that the schema does not know what it leads to. `Draft` is a
  document in which it is marked what is known and what has been added.
* `Inside`, `Beside` and `Whole` compare two states of a document, one with what has been added
  alone and one with known entries besides: in a known table, under its key, and as a whole. They
  are kept by all that is added (`Whole.define`, `Whole.descend`) and by what is known
  (`Whole.define_known`, `Whole.block`).
* `exists_of_additions` goes through a whole document.
-/

namespace Switchboard.Toml

open Node (lookup replace remove define defineAll descend openTable openElement)

/-! ## Known and added names -/

/-- All keys of an entry. -/
def Definition.names (d : Definition) : List String := d.path ++ [d.key]

/-- The names that a schema knows: entries, and tables with the entries in them. -/
structure Names where
  entries : List String
  tables : String → Option (List String)
  apart : ∀ k ∈ entries, tables k = none

/-- Whether a path leads to something that the schema does not know, in the document or in one of
the known tables. -/
inductive Names.Foreign (N : Names) : List String → Prop
  | outside {k : String} {rest : List String} (ht : N.tables k = none) (hk : k ∉ N.entries) :
    Foreign N (k :: rest)
  | inside {name k : String} {fields rest : List String} (ht : N.tables name = some fields)
      (hk : k ∉ fields) : Foreign N (name :: k :: rest)

/-- An entry that the schema knows, or one that has been added. -/
inductive Piece
  | known (key : String) (v : Toml)
  | added (d : Definition)

namespace Piece

/-- The entry as a definition. -/
def definition : Piece → Definition
  | known key v => ⟨[], key, v⟩
  | added d => d

/-- The entry, if it is known. -/
def known? : Piece → Option Entry
  | known key v => some (key, v)
  | added _ => none

/-- The keys of the entry, if it has been added. -/
def added? : Piece → Option (List String)
  | known .. => none
  | added d => some d.names

/-- Whether the entry has been added. -/
def isAdded : Piece → Bool
  | known .. => false
  | added _ => true

end Piece

/-- A header with the entries behind it: one of a known table, or one that has been added. -/
inductive Block
  | known (name : String) (pieces : List Piece)
  | table (path : List String) (key : String) (definitions : List Definition)
  | element (path : List String) (key : String) (definitions : List Definition)

namespace Block

/-- The header and the entries as statements. -/
def statements : Block → List Statement
  | known name pieces => .table [] name :: pieces.map fun p => .entry p.definition
  | table path key definitions => .table path key :: definitions.map .entry
  | element path key definitions => .element path key :: definitions.map .entry

/-- The table with its known entries, if it is known. -/
def known? : Block → Option NamedTable
  | known name pieces => some (name, pieces.filterMap Piece.known?)
  | table .. | element .. => none

/-- The paths to what has been added. -/
def added : Block → List (List String)
  | known name pieces => (pieces.filterMap Piece.added?).map (name :: ·)
  | table path key _ | element path key _ => [path ++ [key]]

/-- The block without its known entries. -/
def others : Block → Block
  | known name pieces => known name (pieces.filter Piece.isAdded)
  | table path key definitions => table path key definitions
  | element path key definitions => element path key definitions

end Block

/-- A document in which it is marked what the schema knows and what has been added. -/
structure Draft where
  top : List Piece
  blocks : List Block

namespace Draft

/-- The document as statements. -/
def statements (d : Draft) : List Statement :=
  d.top.map (fun p => .entry p.definition) ++ d.blocks.flatMap Block.statements

/-- The known entries in front of all headers. -/
def entries (d : Draft) : List Entry := d.top.filterMap Piece.known?

/-- The known tables with their known entries. -/
def tables (d : Draft) : List NamedTable := d.blocks.filterMap Block.known?

/-- The paths to what has been added. -/
def added (d : Draft) : List (List String) :=
  d.top.filterMap Piece.added? ++ d.blocks.flatMap Block.added

/-- What has been added, with the headers of the known tables. -/
def others (d : Draft) : Draft := ⟨d.top.filter Piece.isAdded, d.blocks.map Block.others⟩

end Draft

/-! ## A known table -/

/-- Two states of a known table: `es` with what has been added alone, and `es'` with the given known
entries besides. -/
structure Inside (fields : List String) (own : List Entry) (es es' : Node.Entries) : Prop where
  nodup : (keys es).Nodup
  nodup' : (keys es').Nodup
  same : ∀ k, k ∉ fields → lookup k es' = lookup k es
  own : es'.filter (fun e => decide (e.1 ∈ fields)) = nodes own

lemma inside_nil (fields : List String) : Inside fields [] [] [] :=
  ⟨List.nodup_nil, List.nodup_nil, fun _ _ => rfl, rfl⟩

section Inside

variable {fields : List String} {own : List Entry} {es es' : Node.Entries}
  (i : Inside fields own es es')
include i

/-- What is added changes both states alike, or none of them. -/
lemma Inside.alters {k : String} {after : Option Node → Option Node}
    {change : Node.Entries → Option Node.Entries} (hk : k ∉ fields)
    (ha : Alters k after change) {t : Node.Entries} (h : change es = some t) :
    ∃ t', change es' = some t' ∧ Inside fields own t t' := by
  have hs := ha es i.nodup
  have hs' := ha es' i.nodup'
  rw [i.same k hk] at hs'
  cases hn : after (lookup k es) with
  | none =>
    simp only [hn] at hs
    exact absurd (hs.symm.trans h) (by simp)
  | some n =>
    simp only [hn] at hs hs'
    obtain ⟨s, heq, hsets⟩ := hs
    obtain ⟨t', heq', hsets'⟩ := hs'
    obtain rfl := Option.some.inj (heq.symm.trans h)
    refine ⟨t', heq', hsets.nodup, hsets'.nodup, fun x hx => ?_, ?_⟩
    · rw [hsets.lookup, hsets'.lookup, i.same x hx]
    · rw [hsets'.others (fun x => decide (x ∈ fields)) (by simpa using hk)]
      exact i.own

/-- A known entry that has not been defined yet finds its key free. -/
theorem Inside.define_known {k : String} (v : Toml) (hk : k ∈ fields)
    (hnew : k ∉ own.map Prod.fst) :
    ∃ t', define k v [] es' = some t' ∧ Inside fields (own ++ [(k, v)]) es t' := by
  have hfree : lookup k es' = none := by
    have hfilter : lookup k (es'.filter fun e => decide (e.1 ∈ fields))
        = if decide (k ∈ fields) then lookup k es' else none :=
      lookup_filter (P := fun x => decide (x ∈ fields))
    rw [i.own, if_pos (by simpa using hk)] at hfilter
    rw [← hfilter, Node.lookup_eq_none_iff, keys_nodes]
    exact hnew
  have hsets := sets_append i.nodup' hfree (.value v)
  refine ⟨es' ++ [(k, .value v)], by rw [define, hfree]; rfl, i.nodup, hsets.nodup,
    fun x hx => ?_, ?_⟩
  · have hne : x ≠ k := fun he => hx (he ▸ hk)
    rw [hsets.lookup, if_neg hne, i.same x hx]
  · rw [List.filter_append, i.own]
    simp [nodes, hk]

end Inside

/-- Entries are defined one after the other, the added ones in both states and the known ones in one
of them. -/
lemma defineAll_pieces {R : List Entry → Node.Entries → Node.Entries → Prop} {ps : List Piece}
    (hadded : ∀ d, .added d ∈ ps → ∀ own es es' t, R own es es' →
      define d.key d.value d.path es = some t →
      ∃ t', define d.key d.value d.path es' = some t' ∧ R own t t')
    (hknown : ∀ k v, .known k v ∈ ps → ∀ own es es', k ∉ own.map Prod.fst → R own es es' →
      ∃ t', define k v [] es' = some t' ∧ R (own ++ [(k, v)]) es t')
    {own : List Entry} {es es' t : Node.Entries} (h : R own es es')
    (hn : ((own ++ ps.filterMap Piece.known?).map Prod.fst).Nodup)
    (ht : defineAll ((ps.filter Piece.isAdded).map Piece.definition) es = some t) :
    ∃ t', defineAll (ps.map Piece.definition) es' = some t' ∧
      R (own ++ ps.filterMap Piece.known?) t t' := by
  -- on the entries, from the state that those before them have left
  induction ps generalizing own es es' with
  | nil =>
    obtain rfl := Option.some.inj ht
    rw [List.filterMap_nil, List.append_nil]
    exact ⟨es', rfl, h⟩
  | cons p ps ih =>
    have hadded' := fun d hd => hadded d (List.mem_cons_of_mem _ hd)
    have hknown' := fun k v hv => hknown k v (List.mem_cons_of_mem _ hv)
    cases p with
    | known k v =>
      have hnew : k ∉ own.map Prod.fst := by
        intro hmem
        rw [List.map_append, List.nodup_append] at hn
        exact hn.2.2 k hmem k (by simp [Piece.known?]) rfl
      obtain ⟨s', hs', hR⟩ := hknown k v List.mem_cons_self own es es' hnew h
      have hsplit : own ++ (Piece.known k v :: ps).filterMap Piece.known?
          = (own ++ [(k, v)]) ++ ps.filterMap Piece.known? := by
        simp [Piece.known?]
      rw [hsplit] at hn ⊢
      obtain ⟨t', ht', hR'⟩ := ih hadded' hknown' hR hn ht
      refine ⟨t', ?_, hR'⟩
      change (define k v [] es').bind (defineAll (ps.map Piece.definition)) = some t'
      rw [hs', Option.bind_some, ht']
    | added d =>
      change (define d.key d.value d.path es).bind
        (defineAll ((ps.filter Piece.isAdded).map Piece.definition)) = some t at ht
      obtain ⟨s, hs, hrest⟩ := Option.bind_eq_some_iff.1 ht
      obtain ⟨s', hs', hR⟩ := hadded d List.mem_cons_self own es es' s h hs
      obtain ⟨t', ht', hR'⟩ := ih hadded' hknown' hR hn hrest
      refine ⟨t', ?_, hR'⟩
      change (define d.key d.value d.path es').bind (defineAll (ps.map Piece.definition)) = some t'
      rw [hs', Option.bind_some, ht']

/-! ## Under the key of a known table -/

/-- What stands under the key of a known table in two states of a document: nothing in both, or a
table in both that has come about in the same way. -/
inductive Beside (fields : List String) : List Entry → Option Node → Option Node → Prop
  | absent : Beside fields [] none none
  | table {own : List Entry} {es es' : Node.Entries} (origin : Origin)
      (i : Inside fields own es es') :
    Beside fields own (some (.table origin es)) (some (.table origin es'))

section Beside

variable {fields : List String} {own : List Entry} {x x' : Option Node} {n : Node}
  (b : Beside fields own x x')
include b

lemma Beside.defineIn {key : String} {v : Toml} {path : List String}
    (h : ∀ own es es' t, Inside fields own es es' → define key v path es = some t →
      ∃ t', define key v path es' = some t' ∧ Inside fields own t t')
    (hn : Toml.defineIn key v path x = some n) :
    ∃ n', Toml.defineIn key v path x' = some n' ∧ Beside fields own (some n) (some n') := by
  have hmap : ∀ {own es es'} (origin : Origin), Inside fields own es es' →
      (define key v path es).map (.table origin) = some n →
      ∃ n', (define key v path es').map (.table origin) = some n' ∧
        Beside fields own (some n) (some n') := fun {own es es'} origin i hsome => by
    obtain ⟨t, ht, rfl⟩ := Option.map_eq_some_iff.1 hsome
    obtain ⟨t', ht', i'⟩ := h own es es' t i ht
    exact ⟨.table origin t', by rw [ht', Option.map_some], .table origin i'⟩
  -- a table that was opened by a header takes no dotted key, with or without additions
  cases b with
  | absent => exact hmap .dotted (inside_nil fields) hn
  | table origin i =>
    cases origin with
    | dotted => exact hmap .dotted i hn
    | passed =>
      simp only [Toml.defineIn] at hn ⊢
      split at hn
      · exact absurd hn (by simp)
      · next hpath =>
        rw [if_neg hpath]
        exact hmap .passed i hn
    | opened => exact absurd hn (by simp [Toml.defineIn])

lemma Beside.descendIn {change : Node.Entries → Option Node.Entries} {path : List String}
    (h : ∀ own es es' t, Inside fields own es es' → descend change path es = some t →
      ∃ t', descend change path es' = some t' ∧ Inside fields own t t')
    (hn : Toml.descendIn change path x = some n) :
    ∃ n', Toml.descendIn change path x' = some n' ∧ Beside fields own (some n) (some n') := by
  have hmap : ∀ {own es es'} (origin : Origin), Inside fields own es es' →
      (descend change path es).map (.table origin) = some n →
      ∃ n', (descend change path es').map (.table origin) = some n' ∧
        Beside fields own (some n) (some n') := fun {own es es'} origin i hsome => by
    obtain ⟨t, ht, rfl⟩ := Option.map_eq_some_iff.1 hsome
    obtain ⟨t', ht', i'⟩ := h own es es' t i ht
    exact ⟨.table origin t', by rw [ht', Option.map_some], .table origin i'⟩
  cases b with
  | absent => exact hmap .passed (inside_nil fields) hn
  | table origin i => exact hmap origin i hn

end Beside

/-- The header of a known table comes before its known entries. -/
theorem Beside.openIn {fields : List String} {ps : List Piece} {x x' : Option Node} {n : Node}
    (b : Beside fields [] x x')
    (hadded : ∀ d, .added d ∈ ps → ∃ k rest, d.names = k :: rest ∧ k ∉ fields)
    (hknown : ∀ k v, .known k v ∈ ps → k ∈ fields)
    (hnodup : ((ps.filterMap Piece.known?).map Prod.fst).Nodup)
    (hn : Toml.openIn ((ps.filter Piece.isAdded).map Piece.definition) x = some n) :
    ∃ n', Toml.openIn (ps.map Piece.definition) x' = some n' ∧
      Beside fields (ps.filterMap Piece.known?) (some n) (some n') := by
  have hmap : ∀ {es es'}, Inside fields [] es es' →
      (defineAll ((ps.filter Piece.isAdded).map Piece.definition) es).map (.table .opened)
        = some n →
      ∃ n', (defineAll (ps.map Piece.definition) es').map (.table .opened) = some n' ∧
        Beside fields (ps.filterMap Piece.known?) (some n) (some n') := fun {es es'} i hsome => by
    obtain ⟨t, ht, rfl⟩ := Option.map_eq_some_iff.1 hsome
    obtain ⟨t', ht', i'⟩ := defineAll_pieces (R := Inside fields)
      (fun d hd own es es' t i h => by
        obtain ⟨k, rest, hnames, hk⟩ := hadded d hd
        obtain ⟨after, ha⟩ := exists_alters_define d hnames
        exact i.alters hk ha h)
      (fun k v hv own es es' hnew i => i.define_known v (hknown k v hv) hnew) i hnodup ht
    exact ⟨.table .opened t', by rw [ht', Option.map_some], .table .opened i'⟩
  cases b with
  | absent => exact hmap (inside_nil fields) hn
  | table origin i =>
    cases origin with
    | passed => exact hmap i hn
    | dotted => exact absurd hn (by simp [Toml.openIn])
    | opened => exact absurd hn (by simp [Toml.openIn])

/-! ## A document -/

/-- The entries of a table among several, or none. -/
def contents (name : String) (tables : List NamedTable) : List Entry := (tables.lookup name).getD []

/-- Two states of a document: `es` with what has been added and the headers of known tables, and
`es'` with known entries and the known tables' entries besides. -/
structure Whole (N : Names) (own : List Entry) (tables : List NamedTable)
    (es es' : Node.Entries) : Prop where
  nodup : (keys es).Nodup
  nodup' : (keys es').Nodup
  same : ∀ k, N.tables k = none → k ∉ N.entries → lookup k es' = lookup k es
  own : ∀ k ∈ N.entries, lookup k es' = lookup k (nodes own)
  beside : ∀ name fields, N.tables name = some fields →
    Beside fields (contents name tables) (lookup name es) (lookup name es')

/-- The empty document is the whole of what is known of it. -/
lemma whole_nil (N : Names) : Whole N [] [] [] [] where
  nodup := List.nodup_nil
  nodup' := List.nodup_nil
  same _ _ _ := rfl
  own _ _ := rfl
  beside _ _ _ := .absent

section Whole

variable {N : Names} {own : List Entry} {tables : List NamedTable} {es es' t : Node.Entries}
  (w : Whole N own tables es es')
include w

/-- What is added outside the known tables changes both states alike, or none of them. -/
theorem Whole.outside {k : String} {after : Option Node → Option Node}
    {change : Node.Entries → Option Node.Entries} (ht : N.tables k = none) (hk : k ∉ N.entries)
    (ha : Alters k after change) (h : change es = some t) :
    ∃ t', change es' = some t' ∧ Whole N own tables t t' := by
  have hs := ha es w.nodup
  have hs' := ha es' w.nodup'
  -- nothing is known of the key, so both documents have the same there
  rw [w.same k ht hk] at hs'
  cases hn : after (lookup k es) with
  | none =>
    simp only [hn] at hs
    exact absurd (hs.symm.trans h) (by simp)
  | some n =>
    simp only [hn] at hs hs'
    obtain ⟨s, heq, hsets⟩ := hs
    obtain ⟨t', heq', hsets'⟩ := hs'
    obtain rfl := Option.some.inj (heq.symm.trans h)
    refine ⟨t', heq', hsets.nodup, hsets'.nodup, fun x hx hx' => ?_, fun x hx => ?_,
      fun name fields hf => ?_⟩
    · rw [hsets.lookup, hsets'.lookup, w.same x hx hx']
    · have hne : x ≠ k := fun he => hk (he ▸ hx)
      rw [hsets'.lookup, if_neg hne, w.own x hx]
    · have hne : name ≠ k := fun he => by simp [he, ht] at hf
      rw [hsets.lookup, hsets'.lookup, if_neg hne, if_neg hne]
      exact w.beside name fields hf

/-- A change of a known table leaves what is beside it as it is. -/
theorem Whole.within {name : String} {fields : List String} {more : List NamedTable}
    {after after' : Option Node → Option Node} {change change' : Node.Entries → Option Node.Entries}
    (hf : N.tables name = some fields) (ha : Alters name after change)
    (ha' : Alters name after' change')
    (hmore : ∀ x, x ≠ name → contents x more = contents x tables)
    (hstep : ∀ x x' n, Beside fields (contents name tables) x x' → after x = some n →
      ∃ n', after' x' = some n' ∧ Beside fields (contents name more) (some n) (some n'))
    (h : change es = some t) : ∃ t', change' es' = some t' ∧ Whole N own more t t' := by
  have hs := ha es w.nodup
  have hs' := ha' es' w.nodup'
  -- the change goes through without the additions, so it does with them
  cases hn : after (lookup name es) with
  | none =>
    simp only [hn] at hs
    exact absurd (hs.symm.trans h) (by simp)
  | some n =>
    obtain ⟨n', hn', hbeside⟩ := hstep _ _ n (w.beside name fields hf) hn
    simp only [hn] at hs
    simp only [hn'] at hs'
    obtain ⟨s, heq, hsets⟩ := hs
    obtain ⟨t', heq', hsets'⟩ := hs'
    obtain rfl := Option.some.inj (heq.symm.trans h)
    refine ⟨t', heq', hsets.nodup, hsets'.nodup, fun x hx hx' => ?_, fun x hx => ?_,
      fun other fields' hf' => ?_⟩
    · -- what is added has no known name
      have hne : x ≠ name := fun he => by simp [he, hf] at hx
      rw [hsets.lookup, hsets'.lookup, if_neg hne, if_neg hne, w.same x hx hx']
    · have hne : x ≠ name := fun he => by simp [← he, N.apart x hx] at hf
      rw [hsets'.lookup, if_neg hne, w.own x hx]
    · rw [hsets.lookup, hsets'.lookup]
      by_cases hx : other = name
      · subst hx
        obtain rfl := Option.some.inj (hf.symm.trans hf')
        rw [if_pos rfl, if_pos rfl]
        exact hbeside
      · rw [if_neg hx, if_neg hx, hmore other hx]
        exact w.beside other fields' hf'

/-- An entry that has been added. -/
theorem Whole.define {d : Definition} (hd : N.Foreign d.names)
    (h : define d.key d.value d.path es = some t) :
    ∃ t', Node.define d.key d.value d.path es' = some t' ∧ Whole N own tables t t' := by
  generalize hnames : d.names = names at hd
  cases hd with
  | outside ht hk =>
    obtain ⟨after, ha⟩ := exists_alters_define d hnames
    exact w.outside ht hk ha h
  | @inside name k fields rest hf hk =>
    obtain ⟨path, key, v⟩ := d
    cases path with
    | nil => exact absurd hnames (by simp [Definition.names])
    | cons x path =>
      obtain ⟨rfl, hrest⟩ := List.cons.inj hnames
      obtain ⟨after, ha⟩ := exists_alters_define ⟨path, key, v⟩ hrest
      exact w.within hf (alters_define key v x path) (alters_define key v x path) (fun _ _ => rfl)
        (fun _ _ _ b => b.defineIn fun _ _ _ _ i => i.alters hk ha) h

/-- A header that has been added, with whatever is behind it. -/
theorem Whole.descend {key : String} {path : List String}
    {change : Node.Entries → Option Node.Entries} (hchange : ∃ after, Alters key after change)
    (hpath : N.Foreign (path ++ [key])) (h : descend change path es = some t) :
    ∃ t', Node.descend change path es' = some t' ∧ Whole N own tables t t' := by
  generalize hnames : path ++ [key] = names at hpath
  cases hpath with
  | outside ht hk =>
    obtain ⟨after, ha⟩ := exists_alters_descend hchange hnames
    exact w.outside ht hk ha h
  | @inside name k fields rest hf hk =>
    cases path with
    | nil => exact absurd hnames (by simp)
    | cons x path =>
      obtain ⟨rfl, hrest⟩ := List.cons.inj hnames
      obtain ⟨after, ha⟩ := exists_alters_descend hchange hrest
      exact w.within hf (alters_descend x change path) (alters_descend x change path)
        (fun _ _ => rfl) (fun _ _ _ b => b.descendIn fun _ _ _ _ i => i.alters hk ha) h

/-- A known entry in front of all headers. -/
theorem Whole.define_known {k : String} (v : Toml) (hk : k ∈ N.entries)
    (hnew : k ∉ own.map Prod.fst) :
    ∃ t', Node.define k v [] es' = some t' ∧ Whole N (own ++ [(k, v)]) tables es t' := by
  have hfree : lookup k es' = none := by
    rw [w.own k hk, Node.lookup_eq_none_iff, keys_nodes]
    exact hnew
  have hsets := sets_append w.nodup' hfree (.value v)
  refine ⟨es' ++ [(k, .value v)], by rw [Node.define, hfree]; rfl, w.nodup, hsets.nodup,
    fun x hx hx' => ?_, fun x hx => ?_, fun name fields hf => ?_⟩
  · have hne : x ≠ k := fun he => hx' (he ▸ hk)
    rw [hsets.lookup, if_neg hne, w.same x hx hx']
  · have hsplit : nodes (own ++ [(k, v)]) = nodes own ++ [(k, .value v)] := List.map_append
    rw [hsplit, lookup_append, lookup_append, w.own x hx]
  · have hne : name ≠ k := fun he => by simp [he, N.apart k hk] at hf
    rw [hsets.lookup, if_neg hne]
    exact w.beside name fields hf

end Whole

/-! ## Headers one after the other -/

/-- The change that a header makes, with the entries behind it. -/
def Block.change : Block → Node.Entries → Option Node.Entries
  | known name pieces => openTable name (pieces.map Piece.definition)
  | table path key definitions => descend (openTable key definitions) path
  | element path key definitions => descend (openElement key definitions) path

lemma leading_append (definitions : List Definition) (rest : List Statement) :
    leading (definitions.map .entry ++ rest) = definitions ++ leading rest := by
  induction definitions with
  | nil => rfl
  | cons d definitions ih => exact congrArg (d :: ·) ih

/-- Blocks begin with a header, so that nothing leads. -/
lemma leading_blocks (blocks : List Block) : leading (blocks.flatMap Block.statements) = [] := by
  cases blocks with
  | nil => rfl
  | cons b blocks => cases b <;> rfl

lemma openSections_append (definitions : List Definition) (rest : List Statement)
    (es : Node.Entries) :
    openSections (definitions.map .entry ++ rest) es = openSections rest es := by
  induction definitions with
  | nil => rfl
  | cons d definitions ih => exact ih

/-- Blocks are opened one after the other. -/
lemma openSections_cons (b : Block) (blocks : List Block) (es : Node.Entries) :
    openSections ((b :: blocks).flatMap Block.statements) es
      = (b.change es).bind (openSections (blocks.flatMap Block.statements)) := by
  -- the entries behind a header are those up to the next block
  have hleading : ∀ definitions : List Definition,
      leading (definitions.map .entry ++ blocks.flatMap Block.statements) = definitions :=
    fun definitions => by rw [leading_append, leading_blocks, List.append_nil]
  have hskip : ∀ definitions : List Definition,
      openSections (definitions.map .entry ++ blocks.flatMap Block.statements)
        = openSections (blocks.flatMap Block.statements) :=
    fun definitions => funext (openSections_append definitions _)
  rw [List.flatMap_cons]
  cases b with
  | known name pieces =>
    have hmap : pieces.map (fun p => Statement.entry p.definition)
        = (pieces.map Piece.definition).map .entry := by rw [List.map_map]; rfl
    rw [Block.statements, hmap, List.cons_append, openSections, hleading, hskip]
    rfl
  | table path key definitions =>
    rw [Block.statements, List.cons_append, openSections, hleading, hskip]
    rfl
  | element path key definitions =>
    rw [Block.statements, List.cons_append, openSections, hleading, hskip]
    rfl

lemma contents_append {name x : String} {entries : List Entry} {tables : List NamedTable} :
    contents x (tables ++ [(name, entries)])
      = match tables.lookup x with
        | some found => found
        | none => if x = name then entries else [] := by
  rw [contents, List.lookup_append]
  cases tables.lookup x with
  | some found => rfl
  | none =>
    rw [Option.none_or, List.lookup_cons]
    by_cases hx : x = name
    · simp [hx]
    · have hbeq : (x == name) = false := beq_false_of_ne hx
      simp [hx, hbeq]

lemma lookup_eq_none_of_not_mem {name : String} {tables : List NamedTable}
    (h : name ∉ tables.map Prod.fst) : tables.lookup name = none := by
  rw [List.lookup_eq_none_iff]
  intro t ht
  rw [bne_iff_ne]
  intro he
  exact h (he ▸ List.mem_map_of_mem ht)

/-- What the schema knows of a table: its entries, each of which is defined once. -/
def Names.Knows (N : Names) (t : NamedTable) : Prop :=
  ∃ fields, N.tables t.1 = some fields ∧ (t.2.map Prod.fst).Nodup ∧ ∀ e ∈ t.2, e.1 ∈ fields

/-- A table is known when its fields are, and each is named once. -/
lemma knows_of_sublist {N : Names} {t : NamedTable} {fields : List String}
    (hf : N.tables t.1 = some fields) (hn : fields.Nodup)
    (h : (t.2.map Prod.fst).Sublist fields) : N.Knows t :=
  ⟨fields, hf, hn.sublist h, fun _ he => h.subset (List.mem_map_of_mem he)⟩

/-- A document with a further block still has what is known of it. -/
theorem Whole.block {N : Names} {own : List Entry} {tables : List NamedTable}
    {es es' t : Node.Entries} (w : Whole N own tables es es') {b : Block}
    (hadded : ∀ path ∈ b.added, N.Foreign path)
    (hknown : ∀ table ∈ b.known?, N.Knows table ∧ table.1 ∉ tables.map Prod.fst)
    (h : b.others.change es = some t) :
    ∃ t', b.change es' = some t' ∧ Whole N own (tables ++ b.known?.toList) t t' := by
  cases b with
  | table path key definitions =>
    rw [Block.known?, Option.toList_none, List.append_nil]
    exact w.descend ⟨_, alters_openTable key definitions⟩ (hadded _ List.mem_cons_self) h
  | element path key definitions =>
    rw [Block.known?, Option.toList_none, List.append_nil]
    exact w.descend ⟨_, alters_openElement key definitions⟩ (hadded _ List.mem_cons_self) h
  | known name pieces =>
    obtain ⟨⟨fields, hf, hnodup, hfields⟩, hnew⟩ := hknown _ rfl
    have hlookup := lookup_eq_none_of_not_mem hnew
    -- the table is new, so that nothing is known in it yet
    have hempty : contents name tables = [] := by rw [contents, hlookup]; rfl
    have hfilled : contents name (tables ++ [(name, pieces.filterMap Piece.known?)])
        = pieces.filterMap Piece.known? := by
      rw [contents_append, hlookup]
      exact if_pos rfl
    refine w.within hf (alters_openTable name _) (alters_openTable name _) (fun x hx => ?_)
      (fun x x' n b hn => ?_) h
    · rw [Block.known?, Option.toList_some, contents_append, if_neg hx, contents]
      cases tables.lookup x <;> rfl
    · rw [hempty] at b
      rw [Block.known?, Option.toList_some, hfilled]
      refine b.openIn (fun d hd => ?_) (fun k v hv => ?_) hnodup hn
      · have hforeign : N.Foreign (name :: d.names) :=
          hadded _ (List.mem_map_of_mem (List.mem_filterMap.2 ⟨_, hd, rfl⟩))
        generalize hnames : d.names = names at hforeign
        cases hforeign with
        | outside ht _ => exact absurd (hf.symm.trans ht) (by simp)
        | inside hf' hk =>
          obtain rfl := Option.some.inj (hf.symm.trans hf')
          exact ⟨_, _, rfl, hk⟩
      · exact hfields (k, v) (List.mem_filterMap.2 ⟨_, hv, rfl⟩)

/-- A document with further blocks still has what is known of it. -/
lemma Whole.blocks {N : Names} {own : List Entry} {tables : List NamedTable}
    {es es' t : Node.Entries} (w : Whole N own tables es es') {blocks : List Block}
    (hadded : ∀ path ∈ blocks.flatMap Block.added, N.Foreign path)
    (hknows : ∀ table ∈ blocks.filterMap Block.known?, N.Knows table)
    (hnodup : ((tables ++ blocks.filterMap Block.known?).map Prod.fst).Nodup)
    (h : openSections ((blocks.map Block.others).flatMap Block.statements) es = some t) :
    ∃ t', openSections (blocks.flatMap Block.statements) es' = some t' ∧
      Whole N own (tables ++ blocks.filterMap Block.known?) t t' := by
  -- on the headers, from the state that those before them have left
  induction blocks generalizing tables es es' with
  | nil =>
    obtain rfl := Option.some.inj h
    rw [List.filterMap_nil, List.append_nil]
    exact ⟨es', rfl, w⟩
  | cons b blocks ih =>
    have hsplit : tables ++ (b :: blocks).filterMap Block.known?
        = (tables ++ b.known?.toList) ++ blocks.filterMap Block.known? := by
      rw [List.filterMap_cons]
      cases b.known? <;> simp
    rw [hsplit] at hnodup ⊢
    rw [List.map_cons, openSections_cons] at h
    obtain ⟨s, hs, hrest⟩ := Option.bind_eq_some_iff.1 h
    have hhead : ∀ table ∈ b.known?, N.Knows table ∧ table.1 ∉ tables.map Prod.fst := by
      intro table htable
      refine ⟨hknows table (List.mem_filterMap.2 ⟨b, List.mem_cons_self, htable⟩), fun hmem => ?_⟩
      have hfirst : ((tables ++ b.known?.toList).map Prod.fst).Nodup := by
        rw [List.map_append] at hnodup
        exact (List.nodup_append.1 hnodup).1
      rw [List.map_append, List.nodup_append] at hfirst
      exact hfirst.2.2 _ hmem _ (by simp [Option.mem_def.1 htable]) rfl
    obtain ⟨s', hs', w'⟩ := w.block
      (fun path hpath => hadded path (List.mem_append_left _ hpath)) hhead hs
    obtain ⟨t', ht', w''⟩ := ih w'
      (fun path hpath => hadded path (List.mem_append_right _ hpath))
      (fun table htable => by
        obtain ⟨x, hx, heq⟩ := List.mem_filterMap.1 htable
        exact hknows table (List.mem_filterMap.2 ⟨x, List.mem_cons_of_mem _ hx, heq⟩)) hnodup hrest
    refine ⟨t', ?_, w''⟩
    rw [openSections_cons, hs', Option.bind_some, ht']

lemma Draft.ofStatements_eq (d : Draft) : ofStatements d.statements
    = (defineAll (d.top.map Piece.definition) []).bind fun root =>
      (openSections (d.blocks.flatMap Block.statements) root).map Node.entriesToToml := by
  have hmap : d.top.map (fun p => Statement.entry p.definition)
      = (d.top.map Piece.definition).map .entry := by rw [List.map_map]; rfl
  rw [ofStatements, Draft.statements, hmap, leading_append, leading_blocks, List.append_nil]
  refine congrArg _ (funext fun root => ?_)
  rw [openSections_append]
  exact Option.map_eq_bind.symm

/-- If what has been added makes a document with the headers of the known tables, it does so with
the known entries besides, and these are found in it under their names. -/
theorem exists_of_additions {N : Names} {d : Draft} (hadded : ∀ path ∈ d.added, N.Foreign path)
    (hentries : (d.entries.map Prod.fst).Nodup) (hknown : ∀ e ∈ d.entries, e.1 ∈ N.entries)
    (htables : (d.tables.map Prod.fst).Nodup) (hknows : ∀ t ∈ d.tables, N.Knows t)
    (h : (ofStatements d.others.statements).isSome = true) :
    ∃ es es', Whole N d.entries d.tables es es' ∧
      ofStatements d.statements = some (Node.entriesToToml es') := by
  rw [Draft.ofStatements_eq, Option.isSome_iff_exists] at h
  obtain ⟨result, h⟩ := h
  obtain ⟨root, hroot, hsections⟩ := Option.bind_eq_some_iff.1 h
  obtain ⟨es, hes, -⟩ := Option.map_eq_some_iff.1 hsections
  obtain ⟨root', hroot', w⟩ := defineAll_pieces (R := fun own => Whole N own [])
    (fun a ha own es es' t w h => w.define (hadded _
      (List.mem_append_left _ (List.mem_filterMap.2 ⟨_, ha, rfl⟩))) h)
    (fun k v hv own es es' hnew w => w.define_known v
      (hknown (k, v) (List.mem_filterMap.2 ⟨_, hv, rfl⟩)) hnew)
    (whole_nil N) hentries hroot
  obtain ⟨es', hes', w'⟩ := w.blocks (fun path hpath => hadded path (List.mem_append_right _ hpath))
    hknows htables hes
  refine ⟨es, es', w', ?_⟩
  rw [Draft.ofStatements_eq, hroot', Option.bind_some, hes', Option.map_some]

/-- The statements of a text. -/
def lines? (text : String) : Option (List Statement) :=
  statements ((skipMark text.toList).length + 1) (skipMark text.toList)

/-- A text is parsed line by line, and its statements together. -/
lemma parse?_eq (text : String) : parse? text = (lines? text).bind ofStatements := rfl

/-- What a text reads as are its lines. -/
lemma lines?_of_reads {text : List Char} {read : List Statement} (h : Reads text read)
    (hmark : skipMark text = text) : lines? (String.ofList text) = some read := by
  rw [lines?, String.toList_ofList, hmark]
  exact h.statements_eq

/-! ## Nothing added -/

/-- A document of flat tables to which nothing has been added. -/
def Draft.plain (top : List Entry) (tables : List NamedTable) : Draft where
  top := top.map fun e => .known e.1 e.2
  blocks := tables.map fun t => .known t.1 (t.2.map fun e => .known e.1 e.2)

lemma filterMap_known? (entries : List Entry) :
    (entries.map fun e => Piece.known e.1 e.2).filterMap Piece.known? = entries := by
  rw [List.filterMap_map]
  exact List.filterMap_some

section plain

variable (top : List Entry) (tables : List NamedTable)

lemma statements_plain :
    (Draft.plain top tables).statements = entryStatements top ++ tableStatements tables := by
  have hentries : ∀ entries : List Entry,
      (entries.map fun e => Piece.known e.1 e.2).map (fun p => Statement.entry p.definition)
        = entryStatements entries := fun entries => by
    rw [entryStatements, definitions, List.map_map, List.map_map]
    rfl
  rw [Draft.statements, Draft.plain, hentries, List.flatMap_map]
  refine congrArg _ (List.flatMap_congr fun t _ => ?_)
  rw [Block.statements, hentries]

lemma entries_plain : (Draft.plain top tables).entries = top := filterMap_known? top

lemma tables_plain : (Draft.plain top tables).tables = tables := by
  rw [Draft.tables, Draft.plain, List.filterMap_map]
  refine (List.filterMap_congr fun t _ => ?_).trans List.filterMap_some
  rw [Function.comp_apply, Block.known?, filterMap_known?]

lemma added_plain : (Draft.plain top tables).added = [] := by
  have hnone : ∀ entries : List Entry,
      (entries.map fun e => Piece.known e.1 e.2).filterMap Piece.added? = [] := fun entries => by
    simp [Piece.added?]
  rw [Draft.added, Draft.plain, hnone, List.nil_append, List.flatMap_eq_nil_iff]
  intro b hb
  obtain ⟨t, -, rfl⟩ := List.mem_map.1 hb
  rw [Block.added, hnone, List.map_nil]

lemma others_plain : (Draft.plain top tables).others
    = Draft.plain [] (tables.map fun t => (t.1, [])) := by
  have hnone : ∀ entries : List Entry,
      (entries.map fun e => Piece.known e.1 e.2).filter Piece.isAdded = [] := fun entries => by
    rw [List.filter_map]
    exact List.map_eq_nil_iff.2 (List.filter_eq_nil_iff.2 fun e _ => Bool.false_ne_true)
  rw [Draft.others, Draft.plain, hnone, List.map_map]
  refine congrArg (Draft.mk []) ?_
  rw [List.map_map]
  refine List.map_congr_left fun t _ => ?_
  rw [Function.comp_apply, Block.others, hnone]
  rfl

/-- The headers of different tables make a document. -/
theorem isSome_others_plain (h : (tables.map Prod.fst).Nodup) :
    (ofStatements (Draft.plain top tables).others.statements).isSome = true := by
  rw [others_plain, statements_plain, ofStatements_flat]
  · rfl
  · simpa [List.map_map, Function.comp_def] using h
  · intro t ht
    obtain ⟨x, -, rfl⟩ := List.mem_map.1 ht
    exact List.nodup_nil

end plain

end Switchboard.Toml
