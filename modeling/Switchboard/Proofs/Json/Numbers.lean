import Switchboard.Proofs.Json.Strings
import Switchboard.Proofs.Text.Digits

/-!
# Numbers as they are written and read

* `number_writeDigits` reads back a whole number of 64 bits that has been written.
* `held_of_number` says that the whole numbers read are numbers of 64 bits, and `size_of_number`
  that no other spelling of one is shorter.
-/

namespace Switchboard.Json

open Digits (isDigit_of_toDigits toDigits_of_pos)

/-- A whole number that 64 bits hold, with or without a sign. -/
def Number.IsWord (n : Int) : Prop := -9223372036854775808 ≤ n ∧ n < 18446744073709551616

/-- A whole number of 64 bits. -/
def Number.Exact : Number → Prop
  | .int n => IsWord n
  | .float _ => False

/-- A number that may have been read: what is whole has 64 bits. -/
def Number.Held : Number → Prop
  | .int n => IsWord n
  | .float _ => True

instance (n : Int) : Decidable (Number.IsWord n) := inferInstanceAs (Decidable (_ ∧ _))

instance : DecidablePred Number.Exact
  | .int n => inferInstanceAs (Decidable (Number.IsWord n))
  | .float _ => inferInstanceAs (Decidable False)

instance : DecidablePred Number.Held
  | .int n => inferInstanceAs (Decidable (Number.IsWord n))
  | .float _ => inferInstanceAs (Decidable True)

/-! ## Digits -/

lemma digitValue_lt {c : Char} (h : c.isDigit = true) : digitValue c < 10 := by
  have hrange := Char.isDigit_iff_toNat.1 h
  have hzero : ('0').toNat = 48 := rfl
  have hnine : ('9').toNat = 57 := rfl
  unfold digitValue
  omega

lemma utf8Size_of_isDigit {c : Char} (h : c.isDigit = true) : c.utf8Size = 1 := by
  have hrange := Char.isDigit_iff_toNat.1 h
  have hnine : ('9').toNat = 57 := rfl
  rw [Utf8.utf8Size_eq, if_pos (by omega)]

lemma byteSize_ofText_digits {digits : List Char} (h : ∀ c ∈ digits, c.isDigit = true) :
    byteSize (Input.ofText digits) = digits.length := by
  induction digits with
  | nil => rfl
  | cons c digits ih =>
    have hc : Utf8.symbolSize (some c) = 1 := utf8Size_of_isDigit (h c List.mem_cons_self)
    have hdigits := ih fun d hd => h d (List.mem_cons_of_mem _ hd)
    rw [ofText_cons, byteSize_cons, hc, hdigits, List.length_cons, Nat.add_comm]

lemma ofDigitChars_cons_digitValue (c : Char) (digits : List Char) (n : Nat) :
    Nat.ofDigitChars 10 (c :: digits) n = Nat.ofDigitChars 10 digits (n * 10 + digitValue c) := by
  rw [Nat.ofDigitChars_cons, Nat.mul_comm]
  rfl

/-- More digits do not make a number smaller. -/
lemma le_ofDigitChars (digits : List Char) (n : Nat) : n ≤ Nat.ofDigitChars 10 digits n := by
  induction digits generalizing n with
  | nil => exact Nat.le_refl n
  | cons c digits ih =>
    have hrest := ih (n * 10 + digitValue c)
    rw [ofDigitChars_cons_digitValue]
    omega

/-- A number is bounded by its digits. -/
lemma ofDigitChars_lt {digits : List Char} (h : ∀ c ∈ digits, c.isDigit = true) (n : Nat) :
    Nat.ofDigitChars 10 digits n < 10 ^ digits.length * (n + 1) := by
  induction digits generalizing n with
  | nil => simp
  | cons c digits ih =>
    have hc := digitValue_lt (h c List.mem_cons_self)
    have hrest := ih (fun d hd => h d (List.mem_cons_of_mem _ hd)) (n * 10 + digitValue c)
    rw [ofDigitChars_cons_digitValue, List.length_cons, Nat.pow_succ, Nat.mul_assoc]
    calc Nat.ofDigitChars 10 digits (n * 10 + digitValue c)
        < 10 ^ digits.length * (n * 10 + digitValue c + 1) := hrest
      _ ≤ 10 ^ digits.length * (10 * (n + 1)) := Nat.mul_le_mul_left _ (by omega)

/-- Digits are accumulated while the number is within the limit. -/
lemma accumulate_eq {digits : List Char} {n : Nat}
    (h : Nat.ofDigitChars 10 digits n ≤ significandLimit) :
    accumulate n digits = (Nat.ofDigitChars 10 digits n, []) := by
  induction digits generalizing n with
  | nil => rfl
  | cons c digits ih =>
    rw [ofDigitChars_cons_digitValue] at h ⊢
    -- further digits only add, so the limit has not been passed here
    have hnext := Nat.le_trans (le_ofDigitChars digits (n * 10 + digitValue c)) h
    rw [accumulate, if_neg (by omega), ih h]

/-- What has been accumulated is within the limit, and all if no digit is left. -/
lemma of_accumulate {digits left : List Char} {n m : Nat} (hn : n ≤ significandLimit)
    (h : accumulate n digits = (m, left)) :
    m ≤ significandLimit ∧ (left = [] → m = Nat.ofDigitChars 10 digits n) := by
  induction digits generalizing n with
  | nil =>
    obtain ⟨rfl, rfl⟩ := Prod.mk.inj h
    exact ⟨hn, fun _ => rfl⟩
  | cons c digits ih =>
    rw [accumulate] at h
    split at h
    · obtain ⟨rfl, rfl⟩ := Prod.mk.inj h
      exact ⟨hn, fun hleft => absurd hleft (by simp)⟩
    · rw [ofDigitChars_cons_digitValue]
      exact ih (by omega) h

/-! ## Runs of digits -/

/-- An input that ends a whole number. -/
def Stops (rest : Input) : Prop :=
  ∀ s, rest.head? = some s → isDigit s = false ∧ s ≠ some '.' ∧ s ≠ some 'e' ∧ s ≠ some 'E'

lemma stops_nil : Stops [] := fun _ h => absurd h (by simp)

lemma stops_cons {s : Symbol} (rest : Input)
    (h : isDigit s = false ∧ s ≠ some '.' ∧ s ≠ some 'e' ∧ s ≠ some 'E') : Stops (s :: rest) := by
  intro t ht
  rwa [← Option.some.inj ht]

/-- An input at which a run of digits ends. -/
def EndsDigits (rest : Input) : Prop := ∀ s, rest.head? = some s → isDigit s = false

lemma Stops.endsDigits {rest : Input} (h : Stops rest) : EndsDigits rest :=
  fun s hs => (h s hs).1

lemma digitRun_cons {c : Char} (h : isDigit (some c) = true) (rest : Input) :
    digitRun (some c :: rest) = c :: digitRun rest := by
  simp [digitRun, h]

lemma afterDigits_cons {c : Char} (h : isDigit (some c) = true) (rest : Input) :
    afterDigits (some c :: rest) = afterDigits rest := by
  simp [afterDigits, h]

/-- Digits are taken off the input together. -/
theorem digitRun_append {digits : List Char} {rest : Input} (h : ∀ c ∈ digits, c.isDigit = true)
    (hrest : EndsDigits rest) : digitRun (Input.ofText digits ++ rest) = digits ∧
      afterDigits (Input.ofText digits ++ rest) = rest := by
  induction digits with
  | nil =>
    cases rest with
    | nil => exact ⟨rfl, rfl⟩
    | cons s rest =>
      have hs := hrest s rfl
      simp [digitRun, afterDigits, hs]
  | cons c digits ih =>
    have hc : isDigit (some c) = true := h c List.mem_cons_self
    obtain ⟨hrun, hafter⟩ := ih fun d hd => h d (List.mem_cons_of_mem _ hd)
    rw [ofText_cons, List.cons_append, digitRun_cons hc, afterDigits_cons hc, hrun, hafter]
    exact ⟨rfl, rfl⟩

lemma isDigit_of_digitRun {input : Input} : ∀ c ∈ digitRun input, c.isDigit = true := by
  intro c hc
  unfold digitRun at hc
  rw [List.mem_filterMap] at hc
  obtain ⟨s, hs, hsc⟩ := hc
  have hdigit := List.all_eq_true.1 List.all_takeWhile s hs
  rwa [show s = some c from hsc] at hdigit

/-- An input is its digits and what stands behind them. -/
lemma byteSize_digitRun (input : Input) :
    (digitRun input).length + byteSize (afterDigits input) = byteSize input := by
  induction input with
  | nil => rfl
  | cons s input ih =>
    cases hs : isDigit s with
    | false => simp [digitRun, afterDigits, hs]
    | true =>
      cases s with
      | none => exact absurd hs (by simp [isDigit])
      | some c =>
        have hc : Utf8.symbolSize (some c) = 1 := utf8Size_of_isDigit hs
        rw [digitRun_cons hs, afterDigits_cons hs, List.length_cons, byteSize_cons, hc]
        omega

/-! ## Numbers that have been written -/

/-- A whole number ends where nothing can follow. -/
lemma afterWhole_of_stops (negative : Bool) (n dropped : Nat) {rest : Input} (h : Stops rest) :
    afterWhole negative n dropped rest = (if dropped = 0 then .ok (wholeNumber negative n)
      else floatNumber negative n dropped).map (·, rest) := by
  unfold afterWhole
  split
  · exact absurd rfl (h _ rfl).2.1
  · exact absurd rfl (h _ rfl).2.2.1
  · exact absurd rfl (h _ rfl).2.2.2
  · split
    · rfl
    · cases floatNumber negative n dropped <;> rfl

/-- A zero in front ends the digits. -/
theorem number_zero (negative : Bool) {rest : Input} (h : EndsDigits rest) :
    number negative (some '0' :: rest) = afterWhole negative 0 0 rest := by
  cases rest with
  | nil => rfl
  | cons s rest =>
    have hs := h s rfl
    have hnumber : number negative (some '0' :: s :: rest)
        = if isDigit s then .error .invalidNumber else afterWhole negative 0 0 (s :: rest) := rfl
    rw [hnumber, hs, if_neg (by decide)]

/-- A number begins with its whole digits. -/
lemma number_of_isDigit (negative : Bool) {c : Char} (hc : c.isDigit = true) (hzero : c ≠ '0')
    (rest : Input) : number negative (some c :: rest)
      = afterWhole negative (accumulate 0 (digitRun (some c :: rest))).1
        (accumulate 0 (digitRun (some c :: rest))).2.length (afterDigits (some c :: rest)) := by
  have hdigit : isDigit (some c) = true := hc
  unfold number
  split
  · next h => exact absurd h (by simp)
  · next h => exact absurd (List.cons.inj h).1 (by simpa using hzero)
  · next h =>
    obtain ⟨rfl, rfl⟩ := List.cons.inj h
    rw [if_pos hdigit]

/-- Digits that have been written are read. -/
theorem number_writeDigits (negative : Bool) {n : Nat} {rest : Input} (hn : n ≤ significandLimit)
    (hrest : Stops rest) : number negative (Input.ofText (Nat.toDigits 10 n) ++ rest)
      = .ok (wholeNumber negative n, rest) := by
  by_cases hpos : 0 < n
  · obtain ⟨c, digits, hdigits, hzero⟩ := toDigits_of_pos hpos
    have hvalue : Nat.ofDigitChars 10 (c :: digits) 0 = n := by
      rw [← hdigits, Nat.ofDigitChars_ten_toDigits]
    have hall : ∀ d ∈ c :: digits, d.isDigit = true := hdigits ▸ isDigit_of_toDigits
    obtain ⟨hrun, hafter⟩ := digitRun_append hall hrest.endsDigits
    have haccumulate : accumulate 0 (c :: digits) = (n, []) := by
      rw [accumulate_eq (by rwa [hvalue]), hvalue]
    rw [ofText_cons, List.cons_append] at hrun hafter
    rw [hdigits, ofText_cons, List.cons_append,
      number_of_isDigit negative (hall c List.mem_cons_self) hzero, hrun, hafter, haccumulate]
    exact afterWhole_of_stops negative n 0 hrest
  · obtain rfl : n = 0 := by omega
    have hzero : Nat.toDigits 10 0 = ['0'] := rfl
    rw [hzero, ofText_cons, ofText_nil, List.cons_append, List.nil_append,
      number_zero negative hrest.endsDigits]
    exact afterWhole_of_stops negative 0 0 hrest

/-- A whole number of 64 bits as it is written: digits, behind a minus sign if it is negative. -/
theorem writeInt_cases {k : Int} (h : Number.IsWord k) :
    ∃ n ≤ significandLimit, writeInt k = Nat.toDigits 10 n ∧ wholeNumber false n = .int k ∨
      writeInt k = '-' :: Nat.toDigits 10 n ∧ wholeNumber true n = .int k := by
  unfold Number.IsWord at h
  unfold significandLimit
  cases k with
  | ofNat n =>
    refine ⟨n, ?_, .inl ⟨rfl, rfl⟩⟩
    change -9223372036854775808 ≤ (n : Int) ∧ (n : Int) < 18446744073709551616 at h
    omega
  | negSucc n =>
    refine ⟨n + 1, by omega, .inr ⟨rfl, ?_⟩⟩
    rw [wholeNumber, if_neg (by decide), if_pos (by omega)]
    rfl

/-! ## Numbers that have been read -/

/-- A number that is not whole is a float. -/
lemma float_of_floatNumber {negative : Bool} {n : Nat} {exponent : Int} {m : Number}
    (h : floatNumber negative n exponent = .ok m) : ∃ x, m = .float x := by
  unfold floatNumber at h
  obtain ⟨x, -, hx⟩ := of_map h
  exact ⟨_, hx.symm⟩

/-- A number with an exponent is a float. -/
lemma float_of_exponentPart {negative : Bool} {n : Nat} {start : Int} {input rest : Input}
    {m : Number} (h : exponentPart negative n start input = .ok (m, rest)) :
    ∃ x, m = .float x := by
  unfold exponentPart at h
  split at h
  next down unsigned hsign =>
  clear hsign
  dsimp only at h
  split at h
  · exact absurd h (by simp)
  split at h
  · split at h
    · split at h
      · exact absurd h (by simp)
      · simp only [Except.ok.injEq, Prod.mk.injEq] at h
        exact ⟨_, h.1.symm⟩
    · obtain ⟨x, hx, hpair⟩ := of_bind h
      obtain ⟨rfl, rfl⟩ := Prod.mk.inj (Except.ok.inj hpair)
      exact float_of_floatNumber hx
  · exact absurd h (by simp)

/-- A number with a fraction is a float. -/
lemma float_of_fractionPart {negative : Bool} {n : Nat} {start : Int} {input rest : Input}
    {m : Number} (h : fractionPart negative n start input = .ok (m, rest)) :
    ∃ x, m = .float x := by
  unfold fractionPart at h
  dsimp only at h
  split at h
  · split at h <;> exact absurd h (by simp)
  split at h
  · exact float_of_exponentPart h
  · exact float_of_exponentPart h
  · obtain ⟨x, hx, hpair⟩ := of_bind h
    obtain ⟨rfl, rfl⟩ := Prod.mk.inj (Except.ok.inj hpair)
    exact float_of_floatNumber hx

/-- What a number is read as: a float, or the whole number of its digits. -/
theorem of_afterWhole {negative : Bool} {n dropped : Nat} {input rest : Input} {m : Number}
    (h : afterWhole negative n dropped input = .ok (m, rest)) :
    (∃ x, m = .float x) ∨ dropped = 0 ∧ m = wholeNumber negative n ∧ rest = input := by
  unfold afterWhole at h
  split at h
  · exact .inl (float_of_fractionPart h)
  · exact .inl (float_of_exponentPart h)
  · exact .inl (float_of_exponentPart h)
  split at h
  · next hdropped =>
    obtain ⟨rfl, rfl⟩ := Prod.mk.inj (Except.ok.inj h)
    exact .inr ⟨hdropped, rfl, rfl⟩
  · obtain ⟨x, hx, hpair⟩ := of_bind h
    obtain ⟨rfl, rfl⟩ := Prod.mk.inj (Except.ok.inj hpair)
    exact .inl (float_of_floatNumber hx)

/-- A number has no more digits than it was read from. -/
lemma length_toDigits_le {digits : List Char} (h : ∀ c ∈ digits, c.isDigit = true)
    (hne : digits ≠ []) :
    (Nat.toDigits 10 (Nat.ofDigitChars 10 digits 0)).length ≤ digits.length := by
  have hpos := List.length_pos_iff.2 hne
  have hlt := ofDigitChars_lt h 0
  rw [Nat.zero_add, Nat.mul_one] at hlt
  exact (Nat.length_toDigits_le_iff (by decide) hpos).2 hlt

/-- A number is a zero, or digits of which the first is none, and what follows. -/
theorem number_cases {negative : Bool} {input rest : Input} {m : Number}
    (h : number negative input = .ok (m, rest)) :
    (∃ tail, input = some '0' :: tail ∧ EndsDigits tail ∧
      afterWhole negative 0 0 tail = .ok (m, rest)) ∨
    ∃ c tail, input = some c :: tail ∧ c.isDigit = true ∧ c ≠ '0' ∧
      afterWhole negative (accumulate 0 (digitRun input)).1
        (accumulate 0 (digitRun input)).2.length (afterDigits input) = .ok (m, rest) := by
  have hnumber := h
  unfold number at h
  split at h
  · exact absurd h (by simp)
  · next tail =>
    -- a zero stands alone: a digit behind it would be an error
    have hends : EndsDigits tail := by
      intro s hs
      cases tail with
      | nil => exact absurd hs (by simp)
      | cons t tail =>
        obtain rfl := Option.some.inj hs
        cases hdigit : isDigit t with
        | false => rfl
        | true => exact absurd h (by simp [hdigit])
    rw [number_zero negative hends] at hnumber
    exact .inl ⟨tail, rfl, hends, hnumber⟩
  · next s tail hzero =>
    split at h
    · next hdigit =>
      cases s with
      | none => exact absurd hdigit (by simp [isDigit])
      | some c => exact .inr ⟨c, tail, rfl, hdigit, fun hc => hzero (by rw [hc]), h⟩
    · exact absurd h (by simp)

/-- What the digits of a number are read as: a float, or a whole number that is written with no
more digits. -/
theorem of_number {negative : Bool} {input rest : Input} {m : Number}
    (h : number negative input = .ok (m, rest)) : (∃ x, m = .float x) ∨
      ∃ n ≤ significandLimit, m = wholeNumber negative n ∧
        (Nat.toDigits 10 n).length + byteSize rest ≤ byteSize input := by
  obtain ⟨tail, rfl, -, h⟩ | ⟨c, tail, rfl, hdigit, -, h⟩ := number_cases h
  · have hzero : Utf8.symbolSize (some '0') = 1 := rfl
    have hone : (Nat.toDigits 10 0).length = 1 := rfl
    obtain hfloat | ⟨-, hm, rfl⟩ := of_afterWhole h
    · exact .inl hfloat
    · refine .inr ⟨0, Nat.zero_le _, hm, Nat.le_of_eq ?_⟩
      rw [byteSize_cons, hzero, hone]
  · obtain hfloat | ⟨hleft, hm, rfl⟩ := of_afterWhole h
    · exact .inl hfloat
    · have hne : digitRun (some c :: tail) ≠ [] := by
        rw [digitRun_cons hdigit]
        exact List.cons_ne_nil _ _
      obtain ⟨hle, hvalue⟩ := of_accumulate (Nat.zero_le _) (Prod.eta (accumulate 0 _)).symm
      -- a number is written with no more digits than it has been read from
      have hlength := length_toDigits_le isDigit_of_digitRun hne
      have hsize := byteSize_digitRun (some c :: tail)
      refine .inr ⟨_, hle, hm, ?_⟩
      rw [hvalue (List.length_eq_zero_iff.1 hleft)]
      omega

/-- A whole number within the limit is held exactly or as a float. -/
lemma held_wholeNumber {negative : Bool} {n : Nat} (h : n ≤ significandLimit) :
    (wholeNumber negative n).Held := by
  unfold significandLimit at h
  unfold wholeNumber
  split
  · exact ⟨by omega, by omega⟩
  split
  · exact ⟨by omega, by omega⟩
  · trivial

/-- A number with a sign is negative, or zero and not whole. -/
lemma neg_of_wholeNumber {n : Nat} {k : Int} (h : wholeNumber true n = .int k) : k < 0 := by
  rw [wholeNumber, if_neg (by decide)] at h
  split at h
  · have hk := Number.int.inj h
    omega
  · exact absurd h (by simp)

/-- What is read has 64 bits if it is whole. -/
theorem held_of_number {negative : Bool} {input rest : Input} {m : Number}
    (h : number negative input = .ok (m, rest)) : m.Held := by
  obtain ⟨x, rfl⟩ | ⟨n, hn, rfl, -⟩ := of_number h
  · trivial
  · exact held_wholeNumber hn

/-- No spelling of a natural number is shorter than the one that is written. -/
theorem size_of_number {input rest : Input} {k : Nat}
    (h : number false input = .ok (.int k, rest)) :
    byteSize (Input.ofText (writeInt k)) + byteSize rest ≤ byteSize input := by
  obtain ⟨x, hx⟩ | ⟨n, -, hn, hsize⟩ := of_number h
  · exact absurd hx (by simp)
  · obtain rfl : k = n := Int.ofNat.inj (Number.int.inj hn)
    have hwrite : writeInt k = Nat.toDigits 10 k := rfl
    rwa [hwrite, byteSize_ofText_digits isDigit_of_toDigits]

end Switchboard.Json
