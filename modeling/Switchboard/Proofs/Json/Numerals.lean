import Switchboard.Proofs.Json.Grammar

/-!
# Numerals

A number is read as far as its characters go, and found again wherever they stand in front of
something that does not go on with it.

* `takes_number` says so of numbers in all their forms: `takes_exponentPart`, `takes_fractionPart`
  and `takes_afterWhole` follow the scanner through them.
* `Numeral` is a number as it may be written.
-/

namespace Switchboard.Json

/-! ## Runs of digits -/

lemma endsDigits_afterDigits (input : Input) : EndsDigits (afterDigits input) := by
  intro s hs
  have hhead := List.head?_dropWhile_not isDigit input
  rw [afterDigits] at hs
  rw [hs] at hhead
  simpa using hhead

/-- Where digits end in front of a token, they end in front of its like. -/
theorem EndsDigits.replace {token : List Char} {rest rest' : Input}
    (h : EndsDigits (Input.ofText token ++ rest)) (hrest' : Stops rest') :
    EndsDigits (Input.ofText token ++ rest') := by
  cases token with
  | nil => exact hrest'.endsDigits
  | cons c token => exact fun s hs => h s hs

/-! ## What a scanner takes -/

/-- What has been found at an input is a piece of its text, and is found again where that piece
stands in front of something else. -/
def Taken {α : Type} (scan : Input → Except Defect (α × Input)) (input : Input) (x : α)
    (rest : Input) : Prop :=
  ∃ token, input = Input.ofText token ++ rest ∧
    ∀ rest', Stops rest' → scan (Input.ofText token ++ rest') = .ok (x, rest')

/-- Whatever the scanner finds is a piece of text that it finds again. -/
def Takes {α : Type} (scan : Input → Except Defect (α × Input)) : Prop :=
  ∀ {input x rest}, scan input = .ok (x, rest) → Taken scan input x rest

section taken

variable {α : Type} {scan scan' : Input → Except Defect (α × Input)} {input rest : Input} {x : α}

lemma Taken.nil (h : ∀ rest', Stops rest' → scan rest' = .ok (x, rest')) :
    Taken scan rest x rest := ⟨[], rfl, h⟩

/-- A scanner that passes a character and goes on with another one. -/
theorem Taken.cons {c : Char} (h : Taken scan' input x rest)
    (hscan : ∀ input, scan (some c :: input) = scan' input) :
    Taken scan (some c :: input) x rest := by
  obtain ⟨token, rfl, htoken⟩ := h
  refine ⟨c :: token, rfl, fun rest' hrest' => ?_⟩
  rw [ofText_cons, List.cons_append, hscan]
  exact htoken rest' hrest'

/-- A scanner that passes digits and goes on with another one. -/
theorem Taken.digits (htakes : Takes scan')
    (hscan : ∀ rest, EndsDigits rest → scan (Input.ofText (digitRun input) ++ rest) = scan' rest)
    (h : scan input = .ok (x, rest)) : Taken scan input x rest := by
  have hend := endsDigits_afterDigits input
  rw [← ofText_digitRun input, hscan _ hend] at h
  obtain ⟨token, hafter, htoken⟩ := htakes h
  rw [hafter] at hend
  refine ⟨digitRun input ++ token, ?_, fun rest' hrest' => ?_⟩
  · rw [ofText_append, List.append_assoc, ← hafter, ofText_digitRun]
  · rw [ofText_append, List.append_assoc, hscan _ (hend.replace hrest')]
    exact htoken rest' hrest'

lemma takes_map (value : Except Defect α) : Takes fun rest => value.map (·, rest) := by
  intro input x rest h
  obtain ⟨y, hy, hpair⟩ := of_map h
  obtain ⟨rfl, rfl⟩ := Prod.mk.inj hpair
  exact .nil fun rest' _ => by rw [hy]; rfl

end taken

/-! ## Exponents -/

/-- Whether an exponent has a minus sign, and the input behind its sign. -/
def exponentSign : Input → Bool × Input
  | some '+' :: rest => (false, rest)
  | some '-' :: rest => (true, rest)
  | rest => (false, rest)

/-- The number that an exponent makes of a significand. -/
def exponentValue (negative : Bool) (significand : Nat) (start : Int) (down : Bool) (n : Nat) :
    Except Defect Number :=
  if exponentLimit < n then
    if significand ≠ 0 ∧ !down then .error .numberOutOfRange
    else .ok (.float (Binary64.zero negative))
  else floatNumber negative significand (if down then start - n else start + n)

/-- Reads the digits of an exponent, behind its sign. -/
def exponentDigits (negative : Bool) (significand : Nat) (start : Int) (down : Bool)
    (unsigned : Input) : Except Defect (Number × Input) :=
  match unsigned with
  | [] => .error .endInValue
  | s :: _ =>
    if isDigit s then
      (exponentValue negative significand start down
        (Nat.ofDigitChars 10 (digitRun unsigned) 0)).map (·, afterDigits unsigned)
    else .error .invalidNumber

section exponent

variable {negative : Bool} {significand : Nat} {start : Int} {down : Bool}

/-- An exponent is a sign and digits. -/
lemma exponentPart_eq (input : Input) : exponentPart negative significand start input
    = exponentDigits negative significand start (exponentSign input).1 (exponentSign input).2 := by
  unfold exponentPart
  split
  next down unsigned heq =>
  have hsign : exponentSign input = (down, unsigned) := heq
  rw [hsign]
  unfold exponentDigits exponentValue
  cases unsigned with
  | nil => rfl
  | cons s rest =>
    dsimp only
    split
    · split
      · split <;> rfl
      · rfl
    · rfl

lemma exponentSign_of_isDigit {s : Symbol} (h : isDigit s = true) (rest : Input) :
    exponentSign (s :: rest) = (false, s :: rest) := by
  unfold exponentSign
  split
  · next heq => exact absurd h (by rw [(List.cons.inj heq).1]; decide)
  · next heq => exact absurd h (by rw [(List.cons.inj heq).1]; decide)
  · rfl

/-- The digits of an exponent are taken by every scanner that reads them so. -/
lemma taken_of_exponentDigits {scan : Input → Except Defect (Number × Input)}
    (hscan : ∀ s rest, isDigit s = true →
      scan (s :: rest) = exponentDigits negative significand start down (s :: rest))
    {input rest : Input} {x : Number}
    (h : exponentDigits negative significand start down input = .ok (x, rest)) :
    Taken scan input x rest := by
  cases input with
  | nil => exact absurd h (by simp [exponentDigits])
  | cons s input =>
    by_cases hs : isDigit s = true
    · obtain ⟨c, rfl⟩ : ∃ c, s = some c := by
        cases s with
        | none => exact absurd hs (by simp [isDigit])
        | some c => exact ⟨c, rfl⟩
      have hrun := digitRun_cons hs input
      rw [← hscan _ _ hs] at h
      refine .digits (takes_map (exponentValue negative significand start down
        (Nat.ofDigitChars 10 (digitRun (some c :: input)) 0))) (fun rest' hrest' => ?_) h
      obtain ⟨hrun', hafter'⟩ := digitRun_append isDigit_of_digitRun hrest'
      rw [hrun, ofText_cons, List.cons_append] at hrun' hafter' ⊢
      rw [hscan _ _ hs, exponentDigits, if_pos hs, hrun', hafter']
    · exact absurd h (by simp [exponentDigits, hs])

/-- An exponent is taken as far as its digits go. -/
theorem takes_exponentPart : Takes (exponentPart negative significand start) := by
  intro input x rest h
  rw [exponentPart_eq] at h
  unfold exponentSign at h
  split at h
  · exact .cons (taken_of_exponentDigits (fun _ _ _ => rfl) h) fun input => exponentPart_eq _
  · exact .cons (taken_of_exponentDigits (fun _ _ _ => rfl) h) fun input => exponentPart_eq _
  · refine taken_of_exponentDigits (fun s rest hs => ?_) h
    rw [exponentPart_eq, exponentSign_of_isDigit hs]

end exponent

/-! ## Fractions -/

/-- Reads what follows the digits behind a point. -/
def fractionTail (negative : Bool) (n : Nat) (exponent : Int) :
    Input → Except Defect (Number × Input)
  | some 'e' :: rest => exponentPart negative n exponent rest
  | some 'E' :: rest => exponentPart negative n exponent rest
  | rest => do
    let x ← floatNumber negative n exponent
    .ok (x, rest)

section fraction

variable {negative : Bool} {n : Nat} {exponent start : Int}

lemma fractionTail_of_stops {rest : Input} (h : Stops rest) :
    fractionTail negative n exponent rest = (floatNumber negative n exponent).map (·, rest) := by
  unfold fractionTail
  split
  · exact absurd rfl (h _ rfl).2.2.1
  · exact absurd rfl (h _ rfl).2.2.2
  · cases floatNumber negative n exponent <;> rfl

/-- What follows the digits of a fraction is taken as far as it goes. -/
lemma takes_fractionTail (negative : Bool) (n : Nat) (exponent : Int) :
    Takes (fractionTail negative n exponent) := by
  intro input x rest h
  unfold fractionTail at h
  split at h
  · exact .cons (takes_exponentPart h) fun _ => rfl
  · exact .cons (takes_exponentPart h) fun _ => rfl
  · obtain ⟨y, hy, h⟩ := of_bind h
    obtain ⟨rfl, rfl⟩ := Prod.mk.inj (Except.ok.inj h)
    refine .nil fun rest' hrest' => ?_
    rw [fractionTail_of_stops hrest', hy]
    rfl

/-- The power of ten that is left behind the digits of a fraction. -/
def fractionExponent (n : Nat) (start : Int) (digits : List Char) : Int :=
  start - (digits.length - (accumulate n digits).2.length : Nat)

/-- A fraction is digits and what follows them. -/
lemma fractionPart_eq {input : Input} (h : digitRun input ≠ []) :
    fractionPart negative n start input
      = fractionTail negative (accumulate n (digitRun input)).1
        (fractionExponent n start (digitRun input)) (afterDigits input) := by
  rw [fractionPart, if_neg h]
  rfl

/-- A fraction is taken as far as it goes. -/
theorem takes_fractionPart : Takes (fractionPart negative n start) := by
  intro input x rest h
  by_cases hdigits : digitRun input = []
  · have herror : fractionPart negative n start input
        = if afterDigits input = [] then .error .endInValue else .error .invalidNumber := by
      rw [fractionPart, if_pos hdigits]
    rw [herror] at h
    split at h <;> exact absurd h (by simp)
  · refine .digits (takes_fractionTail negative (accumulate n (digitRun input)).1
      (fractionExponent n start (digitRun input))) (fun rest' hrest' => ?_) h
    obtain ⟨hrun, hafter⟩ := digitRun_append isDigit_of_digitRun hrest'
    rw [fractionPart_eq (by rwa [hrun]), hrun, hafter]

end fraction

/-! ## Numbers -/

/-- What follows the whole digits is taken as far as it goes. -/
theorem takes_afterWhole (negative : Bool) (n dropped : Nat) :
    Takes (afterWhole negative n dropped) := by
  intro input x rest h
  unfold afterWhole at h
  split at h
  · exact .cons (takes_fractionPart h) fun _ => rfl
  · exact .cons (takes_exponentPart h) fun _ => rfl
  · exact .cons (takes_exponentPart h) fun _ => rfl
  split at h
  · next hdropped =>
    obtain ⟨rfl, rfl⟩ := Prod.mk.inj (Except.ok.inj h)
    refine .nil fun rest' hrest' => ?_
    rw [afterWhole_of_stops _ _ _ hrest', if_pos hdropped]
    rfl
  · next hdropped =>
    obtain ⟨y, hy, h⟩ := of_bind h
    obtain ⟨rfl, rfl⟩ := Prod.mk.inj (Except.ok.inj h)
    refine .nil fun rest' hrest' => ?_
    rw [afterWhole_of_stops _ _ _ hrest', if_neg hdropped, hy]
    rfl

/-- A number is taken off the input, whatever its form. -/
theorem takes_number (negative : Bool) : Takes (number negative) := by
  intro input x rest h
  obtain ⟨tail, rfl, hends, hwhole⟩ | ⟨c, tail, rfl, hdigit, hzero, hwhole⟩ := number_cases h
  · obtain ⟨token, rfl, htoken⟩ := takes_afterWhole negative 0 0 hwhole
    refine ⟨'0' :: token, rfl, fun rest' hrest' => ?_⟩
    rw [ofText_cons, List.cons_append, number_zero negative (hends.replace hrest')]
    exact htoken rest' hrest'
  · have hrun := digitRun_cons hdigit tail
    refine .digits (takes_afterWhole negative (accumulate 0 (digitRun (some c :: tail))).1
      (accumulate 0 (digitRun (some c :: tail))).2.length) (fun rest' hrest' => ?_) h
    obtain ⟨hrun', hafter'⟩ := digitRun_append isDigit_of_digitRun hrest'
    rw [hrun, ofText_cons, List.cons_append] at hrun' hafter' ⊢
    rw [number_of_isDigit negative hdigit hzero, hrun', hafter']

/-- A number as it may be written. -/
inductive Numeral : Number → List Char → Prop
  | natural {n : Number} {token : List Char} (h : number false (Input.ofText token) = .ok (n, [])) :
      Numeral n token
  | negative {n : Number} {token : List Char} (h : number true (Input.ofText token) = .ok (n, [])) :
      Numeral n ('-' :: token)

lemma ofText_inj {text text' : List Char} (h : Input.ofText text = Input.ofText text') :
    text = text' :=
  (List.map_inj_right fun _ _ => Option.some.inj).1 h

/-- A number that is read alone is read in front of whatever ends it. -/
lemma number_append {negative : Bool} {n : Number} {token : List Char} {rest : Input}
    (h : number negative (Input.ofText token) = .ok (n, [])) (hrest : Stops rest) :
    number negative (Input.ofText token ++ rest) = .ok (n, rest) := by
  obtain ⟨token', heq, htoken⟩ := takes_number negative h
  rw [List.append_nil] at heq
  rw [ofText_inj heq]
  exact htoken rest hrest

/-- What is read as a number stands for it alone as well. -/
lemma numeral_of_number {negative : Bool} {n : Number} {input rest : Input}
    (h : number negative input = .ok (n, rest)) :
    ∃ token, input = Input.ofText token ++ rest ∧
      number negative (Input.ofText token) = .ok (n, []) := by
  obtain ⟨token, hinput, htoken⟩ := takes_number negative h
  have hnil := htoken [] stops_nil
  rw [List.append_nil] at hnil
  exact ⟨token, hinput, hnil⟩

lemma isDigit_of_number {negative : Bool} {token : List Char} {p : Number × Input}
    (h : number negative (Input.ofText token) = .ok p) :
    ∃ c tail, token = c :: tail ∧ c.isDigit = true := by
  cases token with
  | nil => exact absurd h (by simp [number])
  | cons c tail =>
    obtain ⟨tail', heq, -⟩ | ⟨d, tail', heq, hdigit, -⟩ := number_cases h
    · obtain rfl := Option.some.inj (List.cons.inj heq).1
      exact ⟨_, tail, rfl, by decide⟩
    · obtain rfl := Option.some.inj (List.cons.inj heq).1
      exact ⟨_, tail, rfl, hdigit⟩

/-- A numeral starts a value. -/
lemma Numeral.starts {n : Number} {token : List Char} (h : Numeral n token) : Starts token := by
  cases h with
  | natural h =>
    obtain ⟨c, tail, rfl, hdigit⟩ := isDigit_of_number h
    exact starts_of_isDigit hdigit tail
  | negative h => exact ⟨'-', _, rfl, by decide, by decide, by decide⟩

/-- A numeral is found, whatever ends it. -/
theorem glimpse_numeral {n : Number} {token : List Char} (h : Numeral n token) {rest : Input}
    (hrest : Stops rest) : glimpse (Input.ofText token ++ rest) = .ok (n.found, rest) := by
  cases h with
  | natural h =>
    have hnumber := number_append h hrest
    obtain ⟨c, tail, rfl, hdigit⟩ := isDigit_of_number h
    rw [ofText_cons, List.cons_append] at hnumber ⊢
    rw [glimpse_of_isDigit hdigit, hnumber]
    rfl
  | @negative token h =>
    have hnumber := number_append h hrest
    have hblank : isBlank (some '-') = false := by decide
    rw [ofText_cons, List.cons_append, glimpse, skipBlank_cons hblank]
    simp only [hnumber, Except.map]

/-! ## Literals -/

/-- A literal is read when it stands there. -/
lemma literal_eq_ok_iff {text : List Char} {input rest : Input} :
    literal text input = .ok rest ↔ input = Input.ofText text ++ rest := by
  induction text generalizing input with
  | nil =>
    rw [literal, ofText_nil, List.nil_append]
    exact ⟨Except.ok.inj, congrArg _⟩
  | cons c text ih =>
    cases input with
    | nil => simp [literal]
    | cons s input =>
      rw [literal, ofText_cons, List.cons_append, List.cons.injEq, ← ih]
      split
      · next hs => simp [hs]
      · next hs => simp [hs]

end Switchboard.Json
