import Switchboard.Proofs.Toml.Tables

/-!
# What statements change in a document

* `Sets` says that one key of a table has been given another node and that nothing else has changed.
* `Alters` says that a change of a table is decided by what stands under one key, and sets that key
  if it is possible. Entries and headers are such changes at the first of their keys:
  `exists_alters_define` and `exists_alters_descend`.
-/

namespace Switchboard.Toml

open Node (lookup replace remove define defineAll descend openTable openElement)

/-! ## Look-ups -/

/-- The keys of entries. -/
abbrev keys (es : Node.Entries) : List String := es.map Prod.fst

section lookup

variable {key x : String} {n m : Node} {es es' : Node.Entries}

lemma lookup_append :
    lookup x (es ++ es') = match lookup x es with
      | none => lookup x es'
      | some m => some m := by
  induction es with
  | nil => rfl
  | cons e es ih =>
    obtain ⟨k, m⟩ := e
    rw [List.cons_append, lookup, lookup]
    split
    · rfl
    · exact ih

lemma lookup_replace :
    lookup x (replace key n es)
      = if x = key then (lookup key es).map fun _ => n else lookup x es := by
  induction es with
  | nil => simp [replace, lookup]
  | cons e es ih =>
    obtain ⟨k, m⟩ := e
    simp only [replace, List.map_cons] at ih ⊢
    rw [lookup, lookup, lookup, ih]
    grind

lemma lookup_filter {P : String → Bool} :
    lookup x (es.filter fun e => P e.1) = if P x then lookup x es else none := by
  induction es with
  | nil => simp [lookup]
  | cons e es ih =>
    obtain ⟨k, m⟩ := e
    rw [List.filter_cons, lookup]
    grind [lookup]

lemma lookup_remove : lookup x (remove key es) = if x = key then none else lookup x es := by
  have h : lookup x (remove key es) = if decide (x ≠ key) then lookup x es else none :=
    lookup_filter (P := fun k => decide (k ≠ key))
  rw [h]
  by_cases hx : x = key <;> simp [hx]

lemma mem_of_lookup (h : lookup key es = some n) : (key, n) ∈ es := by
  induction es with
  | nil => exact absurd h (by simp [lookup])
  | cons e es ih =>
    obtain ⟨k, m⟩ := e
    rw [lookup] at h
    split at h
    · next hk =>
      obtain rfl := Option.some.inj h
      exact hk ▸ List.mem_cons_self
    · exact List.mem_cons_of_mem _ (ih h)

lemma lookup_of_mem (hn : (keys es).Nodup) (h : (key, n) ∈ es) : lookup key es = some n := by
  induction es with
  | nil => exact absurd h List.not_mem_nil
  | cons e es ih =>
    obtain ⟨k, m⟩ := e
    obtain ⟨hk, hes⟩ := List.nodup_cons.1 hn
    rw [lookup]
    rcases List.mem_cons.1 h with heq | hmem
    · obtain ⟨rfl, rfl⟩ := Prod.mk.inj heq
      rw [if_pos rfl]
    · have hne : k ≠ key := fun he => hk (List.mem_map.2 ⟨_, hmem, he.symm⟩)
      rw [if_neg hne]
      exact ih hes hmem

end lookup

/-! ## One key -/

/-- One key has been given another node, and the others are as they were. -/
structure Sets (key : String) (n : Node) (es es' : Node.Entries) : Prop where
  nodup : (keys es').Nodup
  lookup : ∀ x, lookup x es' = if x = key then some n else lookup x es
  others : ∀ P : String → Bool, P key = false →
    es'.filter (fun e => P e.1) = es.filter (fun e => P e.1)

section Sets

variable {key : String} {m : Node} {es : Node.Entries} (hn : (keys es).Nodup)
include hn

/-- A key that is new is set by appending it. -/
lemma sets_append (h : lookup key es = none) (n : Node) : Sets key n es (es ++ [(key, n)]) where
  nodup := by
    rw [keys, List.map_append, List.nodup_append]
    refine ⟨hn, by simp, ?_⟩
    rintro a ha b hb rfl
    obtain rfl : a = key := by simpa using hb
    exact Node.lookup_eq_none_iff.1 h ha
  lookup x := by
    rw [lookup_append]
    by_cases hx : x = key
    · rw [hx, h, if_pos rfl, lookup, if_pos rfl]
    · have hne : key ≠ x := fun he => hx he.symm
      rw [if_neg hx, lookup, if_neg hne, lookup]
      cases lookup x es <;> rfl
  others P hP := by simp [hP]

/-- A key that is there is set by replacing its value. -/
lemma sets_replace (h : lookup key es = some m) (n : Node) :
    Sets key n es (replace key n es) where
  nodup := by
    have hkeys : keys (replace key n es) = keys es := by
      rw [keys, replace, List.map_map]
      rfl
    rw [hkeys]
    exact hn
  lookup x := by rw [lookup_replace, h, Option.map_some]
  others P hP := by
    clear hn h
    induction es with
    | nil => rfl
    | cons e es ih =>
      obtain ⟨k, m⟩ := e
      simp only [replace, List.map_cons, List.filter_cons] at ih ⊢
      rw [ih]
      by_cases hk : k = key
      · simp [hk, hP]
      · simp [hk]

lemma sets_reopen (n : Node) : Sets key n es (remove key es ++ [(key, n)]) := by
  have hrest : (keys (remove key es)).Nodup := hn.sublist (List.filter_sublist.map _)
  have hnone : lookup key (remove key es) = none := by rw [lookup_remove, if_pos rfl]
  have hsets := sets_append hrest hnone n
  refine ⟨hsets.nodup, fun x => ?_, fun P hP => ?_⟩
  · rw [hsets.lookup, lookup_remove]
    split <;> rfl
  · rw [hsets.others P hP, remove, List.filter_filter]
    refine List.filter_congr fun e _ => ?_
    by_cases he : e.1 = key
    · simp [he, hP]
    · simp [he]

end Sets

/-! ## Changes at one key -/

/-- A change that is decided by what stands under one key and leaves all other keys as they are.
`after` says what stands there afterwards, or that there is no such change. -/
def Alters (key : String) (after : Option Node → Option Node)
    (change : Node.Entries → Option Node.Entries) : Prop :=
  ∀ es, (keys es).Nodup → match after (lookup key es) with
    | none => change es = none
    | some n => ∃ es', change es = some es' ∧ Sets key n es es'

/-- A change that gives a key what can be made of its node. -/
lemma alters_map {key : String} {es : Node.Entries} {node : Node.Entries → Node}
    {put : Node.Entries → Node.Entries} (x : Option Node.Entries)
    (h : ∀ sub, Sets key (node sub) es (put sub)) :
    match x.map node with
    | none => x.map put = none
    | some n => ∃ es', x.map put = some es' ∧ Sets key n es es' := by
  cases x with
  | none => rfl
  | some sub => exact ⟨put sub, rfl, h sub⟩

/-- What stands under the first key of an entry with a dotted key afterwards. -/
def defineIn (key : String) (v : Toml) (path : List String) : Option Node → Option Node
  | none => (define key v path []).map (.table .dotted)
  | some (.table .dotted sub) => (define key v path sub).map (.table .dotted)
  | some (.table .passed sub) =>
    if path = [] then none else (define key v path sub).map (.table .passed)
  | some (.array last others) =>
    if path = [] then none else (define key v path last).map fun last => .array last others
  | some (.table .opened _) | some (.value _) => none

/-- What stands under the first key of a longer header afterwards. -/
def descendIn (change : Node.Entries → Option Node.Entries) (path : List String) :
    Option Node → Option Node
  | none => (descend change path []).map (.table .passed)
  | some (.table origin sub) => (descend change path sub).map (.table origin)
  | some (.array last others) => (descend change path last).map fun last => .array last others
  | some (.value _) => none

/-- What stands under the key of a table after its header. -/
def openIn (definitions : List Definition) : Option Node → Option Node
  | none => (defineAll definitions []).map (.table .opened)
  | some (.table .passed sub) => (defineAll definitions sub).map (.table .opened)
  | _ => none

/-- What stands under the key of an array of tables after the header of one more element. -/
def elementIn (definitions : List Definition) : Option Node → Option Node
  | none => (defineAll definitions []).map fun sub => .array sub []
  | some (.array last others) =>
    (defineAll definitions []).map fun sub => .array sub (.table .opened last :: others)
  | _ => none

section Alters

variable (key : String)

lemma alters_define_nil (v : Toml) :
    Alters key (fun | none => some (.value v) | some _ => none) (define key v []) := by
  intro es hn
  rw [define]
  cases h : lookup key es with
  | none => exact ⟨_, rfl, sets_append hn h _⟩
  | some m => rfl

/-- A dotted key alters what stands at its first part. -/
lemma alters_define (v : Toml) (k : String) (path : List String) :
    Alters k (defineIn key v path) (define key v (k :: path)) := by
  intro es hn
  rw [define]
  cases h : lookup k es with
  | none => exact alters_map _ fun sub => sets_append hn h _
  | some n =>
    rcases n with v | ⟨origin, sub⟩ | ⟨last, others⟩
    · rfl
    · cases origin with
      | dotted => exact alters_map _ fun sub => sets_replace hn h _
      | opened => rfl
      | passed =>
        by_cases hp : path = []
        · simp only [defineIn, if_pos hp]
        · simp only [defineIn, if_neg hp]
          exact alters_map _ fun sub => sets_replace hn h _
    · by_cases hp : path = []
      · simp only [defineIn, if_pos hp]
      · simp only [defineIn, if_neg hp]
        exact alters_map _ fun sub => sets_replace hn h _

/-- A path alters what stands at its first part. -/
lemma alters_descend (change : Node.Entries → Option Node.Entries) (path : List String) :
    Alters key (descendIn change path) (descend change (key :: path)) := by
  intro es hn
  rw [descend]
  cases h : lookup key es with
  | none => exact alters_map _ fun sub => sets_append hn h _
  | some n =>
    rcases n with v | ⟨origin, sub⟩ | ⟨last, others⟩
    · rfl
    · exact alters_map _ fun sub => sets_replace hn h _
    · exact alters_map _ fun sub => sets_replace hn h _

/-- A header alters what stands at its key. -/
lemma alters_openTable (definitions : List Definition) :
    Alters key (openIn definitions) (openTable key definitions) := by
  intro es hn
  rw [openTable]
  cases h : lookup key es with
  | none => exact alters_map _ fun sub => sets_append hn h _
  | some n =>
    rcases n with v | ⟨origin, sub⟩ | ⟨last, others⟩
    · rfl
    · cases origin with
      | passed => exact alters_map _ fun sub => sets_reopen hn _
      | _ => rfl
    · rfl

/-- A header of an element alters what stands at its key. -/
lemma alters_openElement (definitions : List Definition) :
    Alters key (elementIn definitions) (openElement key definitions) := by
  intro es hn
  rw [openElement]
  cases h : lookup key es with
  | none => exact alters_map _ fun sub => sets_append hn h _
  | some n =>
    rcases n with v | ⟨origin, sub⟩ | ⟨last, others⟩
    · rfl
    · rfl
    · exact alters_map _ fun sub => sets_replace hn h _

/-- An entry is a change at the first of its keys. -/
theorem exists_alters_define (d : Definition) {k : String} {rest : List String}
    (h : d.path ++ [d.key] = k :: rest) :
    ∃ after, Alters k after (define d.key d.value d.path) := by
  obtain ⟨path, key, v⟩ := d
  cases path with
  | nil =>
    obtain ⟨rfl, -⟩ := List.cons.inj h
    exact ⟨_, alters_define_nil key v⟩
  | cons x path =>
    obtain ⟨rfl, -⟩ := List.cons.inj h
    exact ⟨_, alters_define key v x path⟩

/-- A header is a change at the first of its keys. -/
theorem exists_alters_descend {key : String} {change : Node.Entries → Option Node.Entries}
    (hchange : ∃ after, Alters key after change) {path : List String} {k : String}
    {rest : List String} (h : path ++ [key] = k :: rest) :
    ∃ after, Alters k after (descend change path) := by
  cases path with
  | nil =>
    obtain ⟨rfl, -⟩ := List.cons.inj h
    exact hchange
  | cons x path =>
    obtain ⟨rfl, -⟩ := List.cons.inj h
    exact ⟨_, alters_descend x change path⟩

end Alters

end Switchboard.Toml
