import Switchboard.Store.Table
import Mathlib.Algebra.GroupWithZero.Nat
import Mathlib.Data.Bool.Basic

/-!
# Counting the entries of a table

`Table.total` adds up what the entries weigh, and `Table.count` is the number of entries that pass a
test. What an operation does to them is told by the entry of the key that the operation is about:

* `total_eq_add_erase` takes one key apart from the others;
* `total_insert`, `count_erase`, `count_modify` and others follow from it, since none of the
  operations touches another key.
-/

set_option linter.unusedSectionVars false

namespace Switchboard
/-- An element that is appended counts once more. -/
theorem count_append_singleton {α : Type} [DecidableEq α] (l : List α) (x y : α) :
    (l ++ [x]).count y = l.count y + (decide (x = y)).toNat := by
  rw [List.count_append, List.count_singleton]
  by_cases hx : x = y <;> simp [hx]

namespace Table

variable {κ α : Type}

/-- What a single entry adds to a count. -/
def share (p : κ → α → Bool) (k : κ) (v : Option α) : Nat := v.elim 0 fun v => (p k v).toNat

@[simp] lemma share_none (p : κ → α → Bool) (k : κ) : share p k none = 0 := rfl

@[simp] lemma share_some (p : κ → α → Bool) (k : κ) (v : α) :
    share p k (some v) = (p k v).toNat := rfl

variable [LT κ]

/-- What the entries weigh together. -/
def total (t : Table κ α) (w : κ → α → Nat) : Nat := (t.entries.map fun e => w e.1 e.2).sum

/-- The number of entries that pass a test. -/
def count (t : Table κ α) (p : κ → α → Bool) : Nat := t.entries.countP fun e => p e.1 e.2

@[simp] lemma count_empty (p : κ → α → Bool) : (∅ : Table κ α).count p = 0 := rfl

variable [DecidableEq κ]

lemma mem_of_lookup_eq_some {k : κ} {v : α} {l : List (κ × α)} (h : lookup k l = some v) :
    (k, v) ∈ l := by
  induction l with
  | nil => exact absurd h (by simp [lookup])
  | cons e rest ih =>
    obtain ⟨k', v'⟩ := e
    by_cases hk : k = k'
    · simp only [lookup, hk, if_true, Option.some.injEq] at h
      rw [hk, h]
      exact List.mem_cons_self
    · simp only [lookup, hk, if_false] at h
      exact List.mem_cons_of_mem _ (ih h)

variable [LE κ] [Std.IsLinearOrder κ] [Std.LawfulOrderLT κ]

/-- What is in a list with ascending keys is found. -/
lemma lookup_eq_some_of_mem {k : κ} {v : α} {l : List (κ × α)}
    (hl : (l.map Prod.fst).Pairwise (· < ·)) (h : (k, v) ∈ l) : lookup k l = some v := by
  induction l with
  | nil => exact absurd h (by simp)
  | cons e rest ih =>
    obtain ⟨k', v'⟩ := e
    rw [List.map_cons, List.pairwise_cons] at hl
    rcases List.mem_cons.1 h with heq | hmem
    · rw [Prod.mk.injEq] at heq
      simp [lookup, heq.1, heq.2]
    · have hlt : k' < k := hl.1 k (List.mem_map.2 ⟨(k, v), hmem, rfl⟩)
      have hne : k ≠ k' := by
        intro he
        rw [he] at hlt
        exact Std.lt_irrefl hlt
      simp only [lookup, hne, if_false]
      exact ih hl.2 hmem

/-- The entries are the look-ups. -/
theorem mem_entries_iff {t : Table κ α} {k : κ} {v : α} :
    (k, v) ∈ t.entries ↔ t.get? k = some v :=
  ⟨lookup_eq_some_of_mem t.ascending, mem_of_lookup_eq_some⟩

/-- Something is counted if and only if some key has a value that passes. -/
theorem count_pos_iff {t : Table κ α} {p : κ → α → Bool} :
    0 < t.count p ↔ ∃ k v, t.get? k = some v ∧ p k v = true := by
  rw [count, List.countP_pos_iff]
  constructor
  · rintro ⟨⟨k, v⟩, hmem, hp⟩
    exact ⟨k, v, mem_entries_iff.1 hmem, hp⟩
  · rintro ⟨k, v, hget, hp⟩
    exact ⟨(k, v), mem_entries_iff.2 hget, hp⟩

/-- A sum over a list with ascending keys, with one key apart. -/
lemma sum_eq_add_filter {k : κ} {w : κ → α → Nat} {l : List (κ × α)}
    (hl : (l.map Prod.fst).Pairwise (· < ·)) :
    (l.map fun e => w e.1 e.2).sum
      = (lookup k l).elim 0 (w k) + ((l.filter (·.1 ≠ k)).map fun e => w e.1 e.2).sum := by
  induction l with
  | nil => simp [lookup]
  | cons e rest ih =>
    obtain ⟨k', v'⟩ := e
    rw [List.map_cons, List.pairwise_cons] at hl
    rw [List.map_cons, List.sum_cons, ih hl.2]
    by_cases hk : k = k'
    · -- the keys ascend, so `k` does not come again
      subst hk
      have hnone : lookup k rest = none := lookup_eq_none_of_lt hl.1
      simp [lookup, hnone]
    · have hk' : k' ≠ k := fun he => hk he.symm
      simp only [lookup, hk, if_false, List.filter_cons, ne_eq, hk', not_false_eq_true,
        decide_true, if_true, List.map_cons, List.sum_cons]
      omega

/-- A total is what one key weighs and what the others weigh. -/
theorem total_eq_add_erase (t : Table κ α) (w : κ → α → Nat) (k : κ) :
    t.total w = (t.get? k).elim 0 (w k) + (t.erase k).total w :=
  sum_eq_add_filter t.ascending

/-- A key that is erased takes its share from the total. -/
lemma total_erase (t : Table κ α) (w : κ → α → Nat) (k : κ) :
    (t.erase k).total w + (t.get? k).elim 0 (w k) = t.total w := by
  rw [total_eq_add_erase t w k, Nat.add_comm]

/-- A value that changes takes its old share from the total and adds its new one. -/
lemma total_modify (t : Table κ α) (w : κ → α → Nat) (k : κ) (f : α → α) :
    (t.modify k f).total w + (t.get? k).elim 0 (w k)
      = t.total w + ((t.get? k).map f).elim 0 (w k) := by
  have herase : (t.modify k f).erase k = t.erase k := by
    apply ext_get?
    intro x
    by_cases hx : x = k <;> simp [hx]
  rw [total_eq_add_erase (t.modify k f) w k, total_eq_add_erase t w k, herase]
  simp only [get?_modify, if_true]
  omega

lemma count_eq_total (t : Table κ α) (p : κ → α → Bool) :
    t.count p = t.total fun k v => (p k v).toNat := by
  unfold count total
  induction t.entries with
  | nil => rfl
  | cons e rest ih =>
    rw [List.countP_cons, List.map_cons, List.sum_cons, ih]
    cases hp : p e.1 e.2 <;> simp [hp, Nat.add_comm]

/-- A count is what one key adds and what the others add. -/
lemma count_eq_add_erase (t : Table κ α) (p : κ → α → Bool) (k : κ) :
    t.count p = share p k (t.get? k) + (t.erase k).count p := by
  rw [count_eq_total, count_eq_total]
  exact total_eq_add_erase t _ k

theorem count_erase (t : Table κ α) (p : κ → α → Bool) (k : κ) :
    (t.erase k).count p + share p k (t.get? k) = t.count p := by
  rw [count_eq_add_erase t p k, Nat.add_comm]

lemma count_erase_le (t : Table κ α) (p : κ → α → Bool) (k : κ) :
    (t.erase k).count p ≤ t.count p :=
  Nat.le_of_add_right_le (Nat.le_of_eq (t.count_erase p k))

/-- An entry that does not pass the test is not missed. -/
theorem count_erase_of_not {t : Table κ α} {p : κ → α → Bool} {k : κ} (h : ∀ v, p k v = false) :
    (t.erase k).count p = t.count p := by
  have hcount := t.count_erase p k
  cases hget : t.get? k with
  | none => rwa [hget] at hcount
  | some v => rwa [hget, share_some, h v] at hcount

theorem count_modify (t : Table κ α) (p : κ → α → Bool) (k : κ) (f : α → α) :
    (t.modify k f).count p + share p k (t.get? k)
      = t.count p + share p k ((t.get? k).map f) := by
  rw [count_eq_total, count_eq_total]
  exact total_modify t _ k f

/-- What is left has been there. -/
theorem get?_of_get?_erase {t : Table κ α} {k x : κ} {v : α} (h : (t.erase k).get? x = some v) :
    t.get? x = some v := by
  rw [get?_erase] at h
  split at h
  · exact absurd h (by simp)
  · exact h

lemma erase_eq_self {t : Table κ α} {k : κ} (h : t.get? k = none) : t.erase k = t := by
  apply ext_get?
  intro x
  rw [get?_erase]
  split
  · next hx => rw [hx, h]
  · rfl

/-- Every key is listed once. -/
theorem nodup_keys (t : Table κ α) : t.keys.Nodup :=
  t.ascending.imp fun h he => by
    rw [he] at h
    exact Std.lt_irrefl h

variable [DecidableLT κ]

/-- A key that is given a value adds its share to the total. -/
theorem total_insert (t : Table κ α) (w : κ → α → Nat) (k : κ) (v : α) :
    (t.insert k v).total w + (t.get? k).elim 0 (w k) = t.total w + w k v := by
  have herase : (t.insert k v).erase k = t.erase k := by
    apply ext_get?
    intro x
    by_cases hx : x = k <;> simp [hx]
  rw [total_eq_add_erase (t.insert k v) w k, total_eq_add_erase t w k, herase]
  simp only [get?_insert, if_true, Option.elim_some]
  omega

lemma count_insert (t : Table κ α) (p : κ → α → Bool) (k : κ) (v : α) :
    (t.insert k v).count p + share p k (t.get? k) = t.count p + (p k v).toNat := by
  rw [count_eq_total, count_eq_total]
  exact total_insert t _ k v

lemma insert_eq_self {t : Table κ α} {k : κ} {v : α} (h : t.get? k = some v) :
    t.insert k v = t := by
  apply ext_get?
  intro x
  rw [get?_insert]
  split
  · next hx => rw [hx, h]
  · rfl

/-- What is there has been there or has just been inserted. -/
theorem get?_of_get?_insert {t : Table κ α} {k x : κ} {v w : α}
    (h : (t.insert k v).get? x = some w) : (x = k ∧ v = w) ∨ t.get? x = some w := by
  rw [get?_insert] at h
  split at h
  · next hx => exact .inl ⟨hx, Option.some.inj h⟩
  · exact .inr h

end Table
end Switchboard
