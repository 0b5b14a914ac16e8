import Switchboard.Proofs.Json.Numbers
import Switchboard.Json.Reader

/-!
# Tokens as they are written and read

* `glimpse_writeString` and `glimpse_writeInt` find a string and a whole number that have been
  written.
* `glimpsed` says what has been found where, and `size_of_found_str` and `size_of_found_nat` that it
  took no fewer bytes than writing it takes.
-/

namespace Switchboard.Json

open Digits (isDigit_of_toDigits)

lemma of_malformed {α : Type} {x : Except Defect α} {a : α} (h : malformed x = .ok a) :
    x = .ok a := by
  cases x with
  | error d => exact absurd h (by simp [malformed])
  | ok b => rw [Except.ok.inj h]

lemma of_mismatched {α : Type} {x : Except Mismatch α} {a : α} (h : mismatched x = .ok a) :
    x = .ok a := by
  cases x with
  | error m => exact absurd h (by simp [mismatched])
  | ok b => rw [Except.ok.inj h]

/-! ## Tokens that have been written -/

/-- A text whose first character is neither a blank nor a closing bracket. -/
def Starts (text : List Char) : Prop :=
  ∃ c tail, text = c :: tail ∧ isBlank (some c) = false ∧ c ≠ ']' ∧ c ≠ '\x7d'

lemma skipBlank_cons {s : Symbol} (h : isBlank s = false) (rest : Input) :
    skipBlank (s :: rest) = s :: rest := by
  simp [skipBlank, h]

/-- What comes of the input behind a comma in an array, its blanks left out: an element has to
follow. -/
def behindComma : Input → Except Defect (Option Input)
  | [] => .error .endInValue
  | some ']' :: _ => .error .trailingComma
  | rest => .ok (some rest)

lemma nextElement_cons_comma (rest : Input) :
    nextElement false (some ',' :: rest) = behindComma (skipBlank rest) := rfl

lemma isBlank_of_isDigit {c : Char} (h : c.isDigit = true) : isBlank (some c) = false := by
  have hrange := Char.isDigit_iff_toNat.1 h
  have hzero : ('0').toNat = 48 := rfl
  have hne : ∀ d : Char, d.toNat < 48 → c ≠ d := by
    intro d hd hcd
    rw [hcd] at hrange
    omega
  simp [isBlank, hne]

lemma starts_of_isDigit {c : Char} (h : c.isDigit = true) (tail : List Char) :
    Starts (c :: tail) := by
  have hne : ∀ d : Char, d.isDigit = false → c ≠ d := by
    intro d hd hcd
    rw [hcd, hd] at h
    cases h
  exact ⟨c, tail, rfl, isBlank_of_isDigit h, hne _ rfl, hne _ rfl⟩

/-- A digit is where a number begins. -/
lemma glimpse_of_isDigit {c : Char} (h : c.isDigit = true) (rest : Input) :
    glimpse (some c :: rest)
      = (number false (some c :: rest)).map fun (n, rest) => (n.found, rest) := by
  have hdigit : isDigit (some c) = true := h
  have hne : ∀ d : Char, d.isDigit = false → some c ≠ some d := by
    intro d hd hcd
    rw [Option.some.inj hcd, hd] at h
    cases h
  unfold glimpse
  rw [skipBlank_cons (isBlank_of_isDigit h)]
  -- a digit begins none of the other tokens
  split
  · next heq => exact absurd heq (by simp)
  · next heq => exact absurd (List.cons.inj heq).1 (hne _ rfl)
  · next heq => exact absurd (List.cons.inj heq).1 (hne _ rfl)
  · next heq => exact absurd (List.cons.inj heq).1 (hne _ rfl)
  · next heq => exact absurd (List.cons.inj heq).1 (hne _ rfl)
  · next heq => exact absurd (List.cons.inj heq).1 (hne _ rfl)
  · next heq => exact absurd (List.cons.inj heq).1 (hne _ rfl)
  · next heq => exact absurd (List.cons.inj heq).1 (hne _ rfl)
  · next heq =>
    obtain ⟨rfl, rfl⟩ := List.cons.inj heq
    rw [if_pos hdigit]

lemma starts_writeString (s : String) : Starts (writeString s) :=
  ⟨'"', _, rfl, by decide, by decide, by decide⟩

lemma starts_writeInt {k : Int} (h : Number.IsWord k) : Starts (writeInt k) := by
  obtain ⟨n, -, ⟨hwrite, -⟩ | ⟨hwrite, -⟩⟩ := writeInt_cases h
  · have hdigit := isDigit_of_toDigits (n := n)
    rw [hwrite]
    cases hdigits : Nat.toDigits 10 n with
    | nil => exact absurd hdigits Nat.toDigits_ne_nil
    | cons c digits =>
      rw [hdigits] at hdigit
      exact starts_of_isDigit (hdigit c List.mem_cons_self) digits
  · exact ⟨'-', _, hwrite, by decide, by decide, by decide⟩

/-- A string that has been written is found. -/
theorem glimpse_writeString (s : String) (rest : Input) :
    glimpse (Input.ofText (writeString s) ++ rest) = .ok (.str s, rest) := by
  obtain ⟨body, hwrite, hstring⟩ := string_writeString s rest
  have hblank : isBlank (some '"') = false := by decide
  rw [hwrite, List.cons_append, glimpse, skipBlank_cons hblank]
  simp only [hstring, Except.map]

/-- A whole number that has been written is found. -/
theorem glimpse_writeInt {k : Int} (h : Number.IsWord k) {rest : Input} (hrest : Stops rest) :
    glimpse (Input.ofText (writeInt k) ++ rest) = .ok (.int k, rest) := by
  obtain ⟨n, hn, ⟨hwrite, hwhole⟩ | ⟨hwrite, hwhole⟩⟩ := writeInt_cases h
  · have hnumber := number_writeDigits false hn hrest
    have hdigit := isDigit_of_toDigits (n := n)
    rw [hwrite]
    cases hdigits : Nat.toDigits 10 n with
    | nil => exact absurd hdigits Nat.toDigits_ne_nil
    | cons c digits =>
      rw [hdigits] at hdigit hnumber
      rw [ofText_cons, List.cons_append] at hnumber ⊢
      rw [glimpse_of_isDigit (hdigit c List.mem_cons_self), hnumber, hwhole]
      rfl
  · have hnumber := number_writeDigits true hn hrest
    have hblank : isBlank (some '-') = false := by decide
    rw [hwrite, ofText_cons, List.cons_append, glimpse, skipBlank_cons hblank]
    simp only [hnumber, hwhole]
    rfl

/-! ## Tokens that have been read -/

/-- What is found at a token, and what is left of the input then. -/
inductive Glimpsed : Input → Found → Input → Prop
  | null (input rest : Input) : Glimpsed input .null rest
  | bool (b : Bool) (input rest : Input) : Glimpsed input (.bool b) rest
  | str {s : String} {body rest : Input} (h : string body = .ok (s, rest)) :
      Glimpsed (some '"' :: body) (.str s) rest
  | negative {n : Number} {body rest : Input} (h : number true body = .ok (n, rest)) :
      Glimpsed (some '-' :: body) n.found rest
  | natural {n : Number} {input rest : Input} (h : number false input = .ok (n, rest)) :
      Glimpsed input n.found rest
  | sequence (rest : Input) : Glimpsed (some '[' :: rest) .sequence (some '[' :: rest)
  | map (rest : Input) : Glimpsed (some '\x7b' :: rest) .map (some '\x7b' :: rest)

theorem glimpsed {input rest : Input} {found : Found} (h : glimpse input = .ok (found, rest)) :
    Glimpsed (skipBlank input) found rest := by
  unfold glimpse at h
  split at h
  · exact absurd h (by simp)
  · obtain ⟨rest', -, hpair⟩ := of_map h
    obtain ⟨rfl, rfl⟩ := Prod.mk.inj hpair
    exact .null ..
  · obtain ⟨rest', -, hpair⟩ := of_map h
    obtain ⟨rfl, rfl⟩ := Prod.mk.inj hpair
    exact .bool ..
  · obtain ⟨rest', -, hpair⟩ := of_map h
    obtain ⟨rfl, rfl⟩ := Prod.mk.inj hpair
    exact .bool ..
  · next heq =>
    obtain ⟨⟨s, rest'⟩, hstring, hpair⟩ := of_map h
    obtain ⟨rfl, rfl⟩ := Prod.mk.inj hpair
    rw [heq]
    exact .str hstring
  · next heq =>
    obtain ⟨⟨n, rest'⟩, hnumber, hpair⟩ := of_map h
    obtain ⟨rfl, rfl⟩ := Prod.mk.inj hpair
    rw [heq]
    exact .negative hnumber
  · next heq =>
    obtain ⟨rfl, rfl⟩ := Prod.mk.inj (Except.ok.inj h)
    rw [heq]
    exact .sequence _
  · next heq =>
    obtain ⟨rfl, rfl⟩ := Prod.mk.inj (Except.ok.inj h)
    rw [heq]
    exact .map _
  · next heq =>
    split at h
    · obtain ⟨⟨n, rest'⟩, hnumber, hpair⟩ := of_map h
      obtain ⟨rfl, rfl⟩ := Prod.mk.inj hpair
      rw [heq]
      exact .natural hnumber
    · exact absurd h (by simp)

lemma Number.found_ne_sequence (n : Number) : n.found ≠ .sequence := by
  cases n <;> simp [Number.found]

lemma Number.found_ne_str (n : Number) (s : String) : n.found ≠ .str s := by
  cases n <;> simp [Number.found]

/-! ## No spelling is shorter -/

/-- Skipping blanks does not add bytes. -/
lemma byteSize_skipBlank_le (input : Input) : byteSize (skipBlank input) ≤ byteSize input := by
  induction input with
  | nil => exact Nat.le_refl _
  | cons s input ih =>
    rw [skipBlank, List.dropWhile_cons, byteSize_cons]
    split
    · exact Nat.le_trans ih (Nat.le_add_left _ _)
    · exact Nat.le_refl _

/-- A comma is a byte less. -/
lemma size_of_nextElement {first : Bool} {input next : Input}
    (h : nextElement first input = .ok (some next)) :
    byteSize next + (if first then 0 else 1) ≤ byteSize input := by
  have hblank := byteSize_skipBlank_le input
  unfold nextElement at h
  split at h
  · exact absurd h (by simp)
  · exact absurd h (by simp)
  · next s rest _ heq =>
    rw [heq] at hblank
    split at h
    · next hfirst =>
      rw [← Option.some.inj (Except.ok.inj h), hfirst]
      exact hblank
    next hfirst =>
    split at h
    · have hs := one_le_symbolSize s
      have hrest := byteSize_skipBlank_le rest
      rw [if_neg hfirst]
      rw [byteSize_cons] at hblank
      split at h
      · exact absurd h (by simp)
      · exact absurd h (by simp)
      · rw [← Option.some.inj (Except.ok.inj h)]
        omega
    · exact absurd h (by simp)

lemma size_of_endList {input rest : Input} (h : endList input = .ok rest) :
    byteSize rest + 1 ≤ byteSize input := by
  have hblank := byteSize_skipBlank_le input
  unfold endList at h
  split at h
  · exact absurd h (by simp)
  · next heq =>
    have hone : Utf8.symbolSize (some ']') = 1 := rfl
    rw [heq, byteSize_cons, hone] at hblank
    rw [← Except.ok.inj h]
    omega
  · split at h <;> exact absurd h (by simp)
  · exact absurd h (by simp)

lemma size_of_found_sequence {input rest : Input} (h : glimpse input = .ok (.sequence, rest)) :
    byteSize rest.tail + 1 ≤ byteSize input := by
  have hblank := byteSize_skipBlank_le input
  have hfound := glimpsed h
  generalize skipBlank input = token at hfound hblank
  generalize hsequence : Found.sequence = found at hfound
  cases hfound with
  | sequence rest =>
    have hone : Utf8.symbolSize (some '[') = 1 := rfl
    rw [byteSize_cons, hone] at hblank
    rw [List.tail_cons]
    omega
  | _ => exact absurd hsequence.symm (by simp [Number.found_ne_sequence])

/-- A string is found in no fewer bytes than it is written with. -/
theorem size_of_found_str {input rest : Input} {s : String}
    (h : glimpse input = .ok (.str s, rest)) :
    byteSize (Input.ofText (writeString s)) + byteSize rest ≤ byteSize input := by
  have hblank := byteSize_skipBlank_le input
  have hfound := glimpsed h
  generalize skipBlank input = token at hfound hblank
  generalize hstr : Found.str s = found at hfound
  cases hfound with
  | str hstring =>
    obtain rfl := Found.str.inj hstr
    have hsize := size_of_string hstring
    have hone : Utf8.symbolSize (some '"') = 1 := rfl
    rw [byteSize_cons, hone] at hblank
    omega
  | _ => exact absurd hstr.symm (by simp [Number.found_ne_str])

/-- A natural number is found in no fewer bytes than it is written with. -/
theorem size_of_found_nat {input rest : Input} {k : Nat}
    (h : glimpse input = .ok (.int k, rest)) :
    byteSize (Input.ofText (writeInt k)) + byteSize rest ≤ byteSize input := by
  have hblank := byteSize_skipBlank_le input
  have hfound := glimpsed h
  generalize skipBlank input = token at hfound hblank
  generalize hint : Found.int k = found at hfound
  cases hfound with
  | @negative n _ _ hnumber =>
    -- what stands behind a sign is negative, or no whole number
    cases n with
    | float x => exact absurd hint (by simp [Number.found])
    | int k' =>
      obtain rfl := Found.int.inj hint
      obtain ⟨x, hx⟩ | ⟨m, -, hm, -⟩ := of_number hnumber
      · exact absurd hx (by simp)
      · have hneg := neg_of_wholeNumber hm.symm
        omega
  | @natural n _ _ hnumber =>
    cases n with
    | float x => exact absurd hint (by simp [Number.found])
    | int k' =>
      obtain rfl := Found.int.inj hint
      exact Nat.le_trans (size_of_number hnumber) hblank
  | _ => exact absurd hint (by simp)

end Switchboard.Json
