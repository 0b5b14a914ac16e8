import Mathlib.Tactic.Lemma

/-!
# Decimal digits

A number is written with decimal digits and without zeros in front (`toDigits_of_pos`), and digits
without zeros in front are how their value is written (`toDigits_ofDigitChars`). So a number has one
text. Reading takes a run of characters up to the first that does not belong to it
(`takeWhile_append`, `dropWhile_append`).
-/

namespace Switchboard.Digits

/-! ## Runs of characters -/

section run

variable {p : Char → Bool} {run rest : List Char}

theorem takeWhile_append (hrun : ∀ c ∈ run, p c = true) (hrest : ∀ c ∈ rest.head?, p c = false) :
    (run ++ rest).takeWhile p = run := by
  rw [List.takeWhile_append_of_pos hrun]
  cases rest with
  | nil => simp
  | cons c rest =>
    have hc : p c = false := hrest c rfl
    simp [hc]

theorem dropWhile_append (hrun : ∀ c ∈ run, p c = true) (hrest : ∀ c ∈ rest.head?, p c = false) :
    (run ++ rest).dropWhile p = rest := by
  rw [List.dropWhile_append_of_pos hrun]
  cases rest with
  | nil => rfl
  | cons c rest =>
    have hc : p c = false := hrest c rfl
    simp [hc]

end run

/-! ## Digits and their value -/

lemma isDigit_of_toDigits {n : Nat} : ∀ c ∈ Nat.toDigits 10 n, c.isDigit = true :=
  fun _ hc => Nat.isDigit_of_mem_toDigits (by decide) (by decide) hc

/-- A positive number is written without a zero in front. -/
theorem toDigits_of_pos {n : Nat} (h : 0 < n) : ∃ c digits,
    Nat.toDigits 10 n = c :: digits ∧ c ≠ '0' := by
  induction n using Nat.strongRecOn with
  | ind n ih =>
    rw [Nat.toDigits_eq_if (by decide)]
    split
    · next hlt =>
      refine ⟨_, _, rfl, ?_⟩
      have hdigit : ∀ k, k < 10 → 0 < k → k.digitChar ≠ '0' := by decide
      exact hdigit n hlt h
    · next hge =>
      obtain ⟨c, digits, hdigits, hc⟩ := ih (n / 10) (by omega) (by omega)
      exact ⟨c, digits ++ [(n % 10).digitChar], by rw [hdigits, List.cons_append], hc⟩

/-- A digit is the digit of its value. -/
lemma digitChar_of_isDigit {c : Char} (h : c.isDigit = true) :
    c.toNat - 48 < 10 ∧ (c.toNat - 48).digitChar = c := by
  have hrange := Char.isDigit_iff_toNat.1 h
  have hzero : ('0').toNat = 48 := rfl
  have hnine : ('9').toNat = 57 := rfl
  have hlt : c.toNat - 48 < 10 := by omega
  have hall : ∀ k, k < 10 → (k.digitChar).toNat = 48 + k := by decide
  refine ⟨hlt, Char.ext (UInt32.toNat_inj.1 ?_)⟩
  have hval := hall _ hlt
  change (c.toNat - 48).digitChar.toNat = c.toNat
  omega

lemma toDigits_of_isDigit {c : Char} (h : c.isDigit = true) :
    Nat.toDigits 10 (c.toNat - 48) = [c] := by
  obtain ⟨hlt, hchar⟩ := digitChar_of_isDigit h
  rw [Nat.toDigits_of_lt_base hlt, hchar]

/-- Digits behind a positive number are appended to its digits. -/
lemma toDigits_append {digits : List Char} (h : ∀ c ∈ digits, c.isDigit = true) {n : Nat}
    (hn : 0 < n) :
    Nat.toDigits 10 (Nat.ofDigitChars 10 digits n) = Nat.toDigits 10 n ++ digits := by
  induction digits generalizing n with
  | nil => simp
  | cons c digits ih =>
    have hc := h c List.mem_cons_self
    have hdigits := ih (fun d hd => h d (List.mem_cons_of_mem _ hd)) (n := 10 * n + (c.toNat - 48))
      (by omega)
    have hnext : Nat.toDigits 10 (10 * n + (c.toNat - 48)) = Nat.toDigits 10 n ++ [c] := by
      rw [← Nat.toDigits_append_toDigits (by decide) hn (digitChar_of_isDigit hc).1,
        toDigits_of_isDigit hc]
    have hzero : ('0').toNat = 48 := rfl
    rw [Nat.ofDigitChars_cons, hzero, hdigits, hnext, List.append_assoc, List.singleton_append]

/-- Digits without zeros in front are how their value is written. -/
theorem toDigits_ofDigitChars {digits : List Char} (h : ∀ c ∈ digits, c.isDigit = true)
    (hne : digits ≠ []) (hzero : digits.head? = some '0' → digits = ['0']) :
    Nat.toDigits 10 (Nat.ofDigitChars 10 digits 0) = digits := by
  cases digits with
  | nil => exact absurd rfl hne
  | cons c digits =>
    have hc := h c List.mem_cons_self
    have hrange := Char.isDigit_iff_toNat.1 hc
    have hnat : ('0').toNat = 48 := rfl
    by_cases hfirst : c = '0'
    · rw [hfirst] at hzero ⊢
      rw [hzero rfl]
      rfl
    · have hpos : 0 < c.toNat - 48 := by
        have hne : c.toNat ≠ 48 := fun h => hfirst (Char.ext (UInt32.toNat_inj.1 h))
        omega
      have hdigits := toDigits_append (fun d hd => h d (List.mem_cons_of_mem _ hd)) hpos
      rw [toDigits_of_isDigit hc] at hdigits
      rw [Nat.ofDigitChars_cons, hnat, Nat.mul_zero, Nat.zero_add, hdigits]
      rfl

end Switchboard.Digits
