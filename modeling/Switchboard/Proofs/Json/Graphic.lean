import Switchboard.Proofs.Json.Values

/-!
# Values are written on one line

Control characters stand in a value's strings and names, and never in its text: there they are
escapes.

* `IsGraphic` says that a text has no control characters.
* `isGraphic_writeString` is for strings, and `isGraphic_write` for values whose numbers are whole.
-/

namespace Switchboard.Json

open Digits (isDigit_of_toDigits)

/-- The text has no control characters, and hence no line feed and no carriage return. -/
def IsGraphic (text : List Char) : Prop := ∀ c ∈ text, 0x20 ≤ c.toNat

instance (text : List Char) : Decidable (IsGraphic text) := List.decidableBAll _ text

lemma isGraphic_cons {c : Char} {text : List Char} :
    IsGraphic (c :: text) ↔ 0x20 ≤ c.toNat ∧ IsGraphic text := List.forall_mem_cons

lemma isGraphic_append {text rest : List Char} :
    IsGraphic (text ++ rest) ↔ IsGraphic text ∧ IsGraphic rest := List.forall_mem_append

lemma isGraphic_nil : IsGraphic [] := fun _ h => absurd h (by simp)

/-- Graphic text has no line feed. -/
lemma IsGraphic.lineFeed_not_mem {text : List Char} (h : IsGraphic text) : '\n' ∉ text :=
  fun hmem => absurd (h _ hmem) (by decide)

/-! ## Strings -/

lemma toNat_hexDigit : ∀ n, n < 16 → 0x20 ≤ (hexDigit n).toNat := by decide

lemma toNat_of_shortEscape? {e c : Char} (h : shortEscape? e = some c) : 0x20 ≤ e.toNat := by
  unfold shortEscape? at h
  split at h <;> first | decide | exact absurd h (by simp)

/-- Characters are spelled graphically. -/
lemma Spelling.isGraphic {c : Char} {text : List Char} (h : Spelling c text) :
    IsGraphic text := by
  cases h with
  | short he =>
    exact isGraphic_cons.2 ⟨by decide, isGraphic_cons.2 ⟨toNat_of_shortEscape? he, isGraphic_nil⟩⟩
  | code hlt =>
    have hfirst := toNat_hexDigit (c.toNat / 16) (by omega)
    have hlast := toNat_hexDigit (c.toNat % 16) (by omega)
    simp [isGraphic_cons, isGraphic_nil, hfirst, hlast]
  | plain _ _ h => exact isGraphic_cons.2 ⟨h, isGraphic_nil⟩

/-- Texts are written graphically. -/
theorem isGraphic_writeString (s : String) : IsGraphic (writeString s) := by
  have hbody : IsGraphic (s.toList.flatMap writeChar) := by
    intro c hc
    obtain ⟨d, -, hc⟩ := List.mem_flatMap.1 hc
    exact (spelling_writeChar d).isGraphic c hc
  rw [writeString, isGraphic_cons, isGraphic_append]
  exact ⟨by decide, hbody, isGraphic_cons.2 ⟨by decide, isGraphic_nil⟩⟩

/-! ## Values -/

lemma toNat_of_isDigit {c : Char} (h : c.isDigit = true) : 0x20 ≤ c.toNat := by
  have hlow := (Char.isDigit_iff_toNat.1 h).1
  have hzero : ('0').toNat = 48 := rfl
  omega

lemma isGraphic_writeInt (k : Int) : IsGraphic (writeInt k) := by
  have hdigits : ∀ n, IsGraphic (Nat.toDigits 10 n) := fun n c hc =>
    toNat_of_isDigit (isDigit_of_toDigits c hc)
  cases k with
  | ofNat n => exact hdigits n
  | negSucc n => exact isGraphic_cons.2 ⟨by decide, hdigits (n + 1)⟩

lemma isGraphic_commaSeparated {texts : List (List Char)} (h : ∀ x ∈ texts, IsGraphic x) :
    IsGraphic (commaSeparated texts) := by
  cases texts with
  | nil => exact isGraphic_nil
  | cons x texts =>
    rw [List.forall_mem_cons] at h
    rw [commaSeparated_cons, isGraphic_append]
    refine ⟨h.1, fun c hc => ?_⟩
    obtain ⟨y, hy, hc⟩ := List.mem_flatMap.1 hc
    exact isGraphic_cons.2 ⟨by decide, h.2 y hy⟩ c hc

mutual

/-- A value whose numbers are whole is written without control characters. -/
theorem isGraphic_write : (v : Json) → (∀ n ∈ v.numbers, n.Exact) → IsGraphic v.write
  | .null, _ => by decide
  | .bool b, _ => by cases b <;> decide
  | .num (.int k), _ => isGraphic_writeInt k
  | .num (.float _), h => absurd (h _ List.mem_cons_self) id
  | .str s, _ => isGraphic_writeString s
  | .arr items, h => by
    rw [write, isGraphic_cons, isGraphic_append]
    exact ⟨by decide, isGraphic_commaSeparated (isGraphic_writeItems items h), by decide⟩
  | .obj fields, h => by
    rw [write, isGraphic_cons, isGraphic_append]
    exact ⟨by decide, isGraphic_commaSeparated (isGraphic_writeMembers fields h), by decide⟩

lemma isGraphic_writeItems : (items : List Json) → (∀ n ∈ numbersItems items, n.Exact) →
    ∀ x ∈ writeItems items, IsGraphic x
  | [], _ => fun _ hx => absurd hx (by simp [writeItems])
  | v :: items, h => by
    rw [numbersItems, List.forall_mem_append] at h
    exact List.forall_mem_cons.2 ⟨isGraphic_write v h.1, isGraphic_writeItems items h.2⟩

lemma isGraphic_writeMembers : (fields : List Member) →
    (∀ n ∈ numbersMembers fields, n.Exact) → ∀ x ∈ writeMembers fields, IsGraphic x
  | [], _ => fun _ hx => absurd hx (by simp [writeMembers])
  | (key, v) :: fields, h => by
    rw [numbersMembers, List.forall_mem_append] at h
    refine List.forall_mem_cons.2 ⟨?_, isGraphic_writeMembers fields h.2⟩
    rw [isGraphic_append, isGraphic_cons]
    exact ⟨isGraphic_writeString key, by decide, isGraphic_write v h.1⟩

end

end Switchboard.Json
