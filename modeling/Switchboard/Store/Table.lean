/-!
# Tables

A table holds at most one value for each key and lists its entries with ascending keys. The order
is part of the type, so that a table is determined by its look-ups.

* `get?_insert` and `get?_erase` say what the operations do to every look-up.
* `ext_get?` says that tables with the same look-ups are equal.
-/

namespace Switchboard

/-- Values by key, keys ascending. -/
structure Table (κ α : Type) [LT κ] where
  entries : List (κ × α)
  ascending : (entries.map Prod.fst).Pairwise (· < ·)
deriving DecidableEq, Repr

namespace Table

variable {κ α : Type} [LT κ]

/-- The table without entries. -/
def empty : Table κ α := ⟨[], .nil⟩

instance : EmptyCollection (Table κ α) := ⟨empty⟩

instance : Inhabited (Table κ α) := ⟨empty⟩

/-- The keys, ascending. -/
def keys (t : Table κ α) : List κ := t.entries.map Prod.fst

/-- The values, in the order of their keys. -/
def values (t : Table κ α) : List α := t.entries.map Prod.snd

/-- The number of entries. -/
def size (t : Table κ α) : Nat := t.entries.length

/-- Whether there is no entry. -/
def isEmpty (t : Table κ α) : Bool := t.entries.isEmpty

variable [DecidableEq κ]

/-- The value that a list of entries holds for a key. -/
def lookup (k : κ) : List (κ × α) → Option α
  | [] => none
  | (k', v) :: rest => if k = k' then some v else lookup k rest

/-- The value of a key. -/
def get? (t : Table κ α) (k : κ) : Option α := lookup k t.entries

/-- Whether a key has a value. -/
def contains (t : Table κ α) (k : κ) : Bool := (t.get? k).isSome

/-- The table without a key. -/
def erase (t : Table κ α) (k : κ) : Table κ α :=
  ⟨t.entries.filter (·.1 ≠ k), t.ascending.sublist (List.filter_sublist.map _)⟩

/-- What `f` makes of the value of a key, if it has one. -/
def modify (t : Table κ α) (k : κ) (f : α → α) : Table κ α :=
  ⟨t.entries.map fun (k', v) => (k', if k = k' then f v else v), by
    have h : (t.entries.map fun (k', v) => (k', if k = k' then f v else v)).map Prod.fst
        = t.entries.map Prod.fst := by
      rw [List.map_map]
      rfl
    rw [h]
    exact t.ascending⟩

variable [DecidableLT κ]

/-- Entries with `k` standing for `v`, in front of the first greater key. -/
def place (k : κ) (v : α) : List (κ × α) → List (κ × α)
  | [] => [(k, v)]
  | (k', v') :: rest =>
    if k = k' then (k, v) :: rest
    else if k < k' then (k, v) :: (k', v') :: rest
    else (k', v') :: place k v rest

theorem mem_keys_place {k x : κ} {v : α} {l : List (κ × α)} :
    x ∈ (place k v l).map Prod.fst ↔ x = k ∨ x ∈ l.map Prod.fst := by
  induction l with
  | nil => simp [place]
  | cons e rest ih =>
    obtain ⟨k', v'⟩ := e
    by_cases h : k = k'
    · subst h
      simp [place]
    · by_cases h' : k < k'
      · simp [place, h, h']
      · simp only [place, h, h', if_false, List.map_cons, List.mem_cons, ih]
        grind

variable [LE κ] [Std.IsLinearOrder κ] [Std.LawfulOrderLT κ]

theorem ascending_place {k : κ} {v : α} {l : List (κ × α)}
    (h : (l.map Prod.fst).Pairwise (· < ·)) :
    ((place k v l).map Prod.fst).Pairwise (· < ·) := by
  induction l with
  | nil => simp [place]
  | cons e rest ih =>
    obtain ⟨k', v'⟩ := e
    rw [List.map_cons, List.pairwise_cons] at h
    by_cases hk : k = k'
    · subst hk
      simp only [place, if_true, List.map_cons, List.pairwise_cons]
      exact h
    · by_cases hlt : k < k'
      · simp only [place, hk, hlt, if_true, if_false, List.map_cons, List.pairwise_cons]
        refine ⟨fun x hx => ?_, h⟩
        rcases List.mem_cons.1 hx with rfl | hx
        · exact hlt
        · exact Std.lt_trans hlt (h.1 x hx)
      · simp only [place, hk, hlt, if_false, List.map_cons, List.pairwise_cons]
        refine ⟨fun x hx => ?_, ih h.2⟩
        rcases mem_keys_place.1 hx with rfl | hx
        · grind
        · exact h.1 x hx

/-- The table with `k` standing for `v`. -/
def insert (t : Table κ α) (k : κ) (v : α) : Table κ α :=
  ⟨place k v t.entries, ascending_place t.ascending⟩

/-! ## Look-ups -/

omit [LE κ] [Std.IsLinearOrder κ] [Std.LawfulOrderLT κ] in
theorem lookup_place {k x : κ} {v : α} {l : List (κ × α)} :
    lookup x (place k v l) = if x = k then some v else lookup x l := by
  induction l with
  | nil => simp [place, lookup]
  | cons e rest ih =>
    obtain ⟨k', v'⟩ := e
    by_cases hk : k = k'
    · subst hk
      by_cases hx : x = k <;> simp [place, lookup, hx]
    · by_cases hlt : k < k'
      · simp [place, lookup, hk, hlt]
      · by_cases hx : x = k
        · subst hx
          simp [place, lookup, hk, hlt, ih]
        · simp [place, lookup, hk, hlt, ih, hx]

/-- Inserting a key changes its own look-up only. -/
@[simp] theorem get?_insert (t : Table κ α) (k x : κ) (v : α) :
    (t.insert k v).get? x = if x = k then some v else t.get? x := lookup_place

omit [LT κ] [DecidableLT κ] [LE κ] [Std.IsLinearOrder κ] [Std.LawfulOrderLT κ] in
theorem lookup_filter {k x : κ} {l : List (κ × α)} :
    lookup x (l.filter (·.1 ≠ k)) = if x = k then none else lookup x l := by
  induction l with
  | nil => simp [lookup]
  | cons e rest ih =>
    obtain ⟨k', v'⟩ := e
    by_cases hk : k' = k <;> by_cases hx : x = k <;> grind [lookup]

omit [DecidableLT κ] [LE κ] [Std.IsLinearOrder κ] [Std.LawfulOrderLT κ] in
/-- Erasing a key changes its own look-up only. -/
@[simp] theorem get?_erase (t : Table κ α) (k x : κ) :
    (t.erase k).get? x = if x = k then none else t.get? x := lookup_filter

omit [DecidableLT κ] [LE κ] [Std.IsLinearOrder κ] [Std.LawfulOrderLT κ] in
@[simp] theorem get?_empty (x : κ) : (∅ : Table κ α).get? x = none := rfl

omit [DecidableLT κ] [LE κ] [Std.IsLinearOrder κ] [Std.LawfulOrderLT κ] in
/-- Modifying the value of a key changes its own look-up only. -/
@[simp] theorem get?_modify (t : Table κ α) (k x : κ) (f : α → α) :
    (t.modify k f).get? x = if x = k then (t.get? k).map f else t.get? x := by
  obtain ⟨l, h⟩ := t
  simp only [get?, modify]
  clear h
  induction l with
  | nil => simp [lookup]
  | cons e rest ih =>
    obtain ⟨k', v'⟩ := e
    simp only [List.map_cons, lookup]
    grind

omit [LT κ] [DecidableLT κ] [LE κ] [Std.IsLinearOrder κ] [Std.LawfulOrderLT κ] in
theorem lookup_isSome_iff {x : κ} {l : List (κ × α)} :
    (lookup x l).isSome ↔ x ∈ l.map Prod.fst := by
  induction l with
  | nil => simp [lookup]
  | cons e rest ih =>
    obtain ⟨k', v'⟩ := e
    by_cases hx : x = k' <;> simp_all [lookup]

omit [DecidableLT κ] [LE κ] [Std.IsLinearOrder κ] [Std.LawfulOrderLT κ] in
/-- The keys are those that have a value. -/
theorem mem_keys_iff {t : Table κ α} {x : κ} : x ∈ t.keys ↔ (t.get? x).isSome :=
  lookup_isSome_iff.symm

omit [LE κ] [DecidableLT κ] [Std.IsLinearOrder κ] [Std.LawfulOrderLT κ] in
theorem lookup_eq_none_of_lt {x : κ} {l : List (κ × α)} [Std.Irrefl (α := κ) (· < ·)]
    (h : ∀ k ∈ l.map Prod.fst, x < k) : lookup x l = none := by
  cases hl : lookup x l with
  | none => rfl
  | some v => exact absurd (h x (lookup_isSome_iff.1 (by simp [hl]))) Std.lt_irrefl

omit [DecidableLT κ] in
/-- Two ascending lists of entries with the same look-ups are the same. -/
theorem eq_of_lookup_eq : {l m : List (κ × α)} → (l.map Prod.fst).Pairwise (· < ·) →
    (m.map Prod.fst).Pairwise (· < ·) → (∀ x, lookup x l = lookup x m) → l = m
  | [], [], _, _, _ => rfl
  | [], (k, v) :: m, _, _, h => by simpa [lookup] using h k
  | (k, v) :: l, [], _, _, h => by simpa [lookup] using h k
  | (k, v) :: l, (k', v') :: m, hl, hm, h => by
    rw [List.map_cons, List.pairwise_cons] at hl hm
    have hk : k = k' := by
      rcases (by grind : k < k' ∨ k = k' ∨ k' < k) with hlt | heq | hlt
      · have := h k
        have hn : lookup k ((k', v') :: m) = none := lookup_eq_none_of_lt fun x hx => by
          rcases List.mem_cons.1 hx with rfl | hx
          · exact hlt
          · exact Std.lt_trans hlt (hm.1 x hx)
        rw [hn] at this
        simp [lookup] at this
      · exact heq
      · have := h k'
        have hn : lookup k' ((k, v) :: l) = none := lookup_eq_none_of_lt fun x hx => by
          rcases List.mem_cons.1 hx with rfl | hx
          · exact hlt
          · exact Std.lt_trans hlt (hl.1 x hx)
        rw [hn] at this
        simp [lookup] at this
    subst hk
    have hv : v = v' := by simpa [lookup] using h k
    subst hv
    have hrest : l = m := eq_of_lookup_eq hl.2 hm.2 fun x => by
      by_cases hx : x = k
      · subst hx
        rw [lookup_eq_none_of_lt hl.1, lookup_eq_none_of_lt hm.1]
      · simpa [lookup, hx] using h x
    rw [hrest]

omit [DecidableLT κ] in
/-- A table is determined by its look-ups. -/
theorem ext_get? {t u : Table κ α} (h : ∀ x, t.get? x = u.get? x) : t = u := by
  obtain ⟨l, hl⟩ := t
  obtain ⟨m, hm⟩ := u
  have : l = m := eq_of_lookup_eq hl hm h
  subst this
  rfl

end Table
end Switchboard
