import Switchboard.Proofs.Json.Tokens

/-!
# The grammar of JSON tokens

What tokens look like, said without reading, and that exactly these are read.

* `string_eq_ok_iff`: a string is its characters, each as it is or by an escape.
* `natural_of_number`: a natural number is written with its digits, without zeros in front.
* `blank_skipBlank` and `skipBlank_append`: between tokens there may be blanks.
-/

namespace Switchboard.Json

open Digits (isDigit_of_toDigits)

/-! ## The grammar -/

/-- What may stand between tokens: spaces, tabs and ends of lines. -/
def Blank (text : List Char) : Prop := ∀ c ∈ text, c ∈ [' ', '\t', '\n', '\r']

/-- The letters of the short escapes and what they stand for. -/
def shortEscapes : List (Char × Char) :=
  [('"', '"'), ('\\', '\\'), ('/', '/'), ('b', '\x08'), ('f', '\x0c'), ('n', '\n'), ('r', '\r'),
    ('t', '\t')]

/-- Four hexadecimal digits and their value. -/
inductive CodeUnit : Nat → List Char → Prop
  | digits {a b c d : Char} {i j k l : Nat} (ha : Hex.value? a = some i)
      (hb : Hex.value? b = some j) (hc : Hex.value? c = some k) (hd : Hex.value? d = some l) :
      CodeUnit (((i * 16 + j) * 16 + k) * 16 + l) [a, b, c, d]

/-- The escapes of a character, behind the backslash: by a letter, by its number, or, if that has
more than 16 bits, by a pair of surrogates. -/
inductive Escape (c : Char) : List Char → Prop
  | short {e : Char} (h : (e, c) ∈ shortEscapes) : Escape c [e]
  | code {digits : List Char} (h : CodeUnit c.toNat digits) : Escape c ('u' :: digits)
  | pair {high low : Nat} {first second : List Char} (hfirst : CodeUnit high first)
      (hsecond : CodeUnit low second) (hhigh : 0xD800 ≤ high ∧ high ≤ 0xDBFF)
      (hlow : 0xDC00 ≤ low ∧ low ≤ 0xDFFF)
      (h : c.toNat = 0x10000 + (high - 0xD800) * 0x400 + (low - 0xDC00)) :
      Escape c ('u' :: (first ++ '\\' :: 'u' :: second))

/-- A text as it may be written in a string: each character by an escape or, if it is neither a
quote nor a backslash nor a control character, as it is. -/
inductive Characters : (text : List Char) → (written : List Char) → Prop
  | nil : Characters [] []
  | plain {c : Char} {text written : List Char} (hquote : c ≠ '"') (hslash : c ≠ '\\')
      (hcontrol : 0x20 ≤ c.toNat) (h : Characters text written) :
      Characters (c :: text) (c :: written)
  | escape {c : Char} {text written tail : List Char} (hescape : Escape c tail)
      (h : Characters text written) : Characters (c :: text) ('\\' :: (tail ++ written))

/-- A string with its quotes. -/
def Quoted (s : String) (token : List Char) : Prop :=
  ∃ written, Characters s.toList written ∧ token = '"' :: (written ++ ['"'])

/-- Tokens in a row, with blanks in front of each and behind the last. -/
inductive Spaced : (tokens : List (List Char)) → List Char → Prop
  | nil {blank : List Char} (h : Blank blank) : Spaced [] blank
  | cons {blank token text : List Char} {tokens : List (List Char)} (h : Blank blank)
      (hs : Spaced tokens text) : Spaced (token :: tokens) (blank ++ (token ++ text))

/-! ## Escapes -/

lemma lt_of_value? {c : Char} {n : Nat} (h : Hex.value? c = some n) : n < 16 := by
  unfold Hex.value? at h
  have hval (d : Char) : d.toNat = d.val.toNat := rfl
  simp only [Char.le_def, UInt32.le_iff_toNat_le] at h
  have hnine : ('9').val.toNat = 57 := rfl
  have hf : ('f').val.toNat = 102 := rfl
  have hF : ('F').val.toNat = 70 := rfl
  have hzero : ('0').toNat = 48 := rfl
  have ha : ('a').toNat = 97 := rfl
  have hA : ('A').toNat = 65 := rfl
  have hc := hval c
  split at h
  · have hn := Option.some.inj h
    omega
  split at h
  · have hn := Option.some.inj h
    omega
  split at h
  · have hn := Option.some.inj h
    omega
  · exact absurd h (by simp)

lemma CodeUnit.lt {n : Nat} {digits : List Char} (h : CodeUnit n digits) : n < 0x10000 := by
  cases h with
  | digits ha hb hc hd =>
    have hi := lt_of_value? ha
    have hj := lt_of_value? hb
    have hk := lt_of_value? hc
    have hl := lt_of_value? hd
    omega

lemma CodeUnit.length {n : Nat} {digits : List Char} (h : CodeUnit n digits) :
    digits.length = 4 := by
  cases h
  rfl

/-- The digits of a code unit are read as its number. -/
lemma hex4_append {n : Nat} {digits : List Char} (h : CodeUnit n digits) (rest : Input) :
    hex4 (Input.ofText digits ++ rest) = .ok n := by
  cases h with
  | digits ha hb hc hd => simp [hex4, hexValue?, ha, hb, hc, hd]

/-- What is read as a code unit are its four digits. -/
lemma codeUnit_of_hex4 {input : Input} {n : Nat} (h : hex4 input = .ok n) :
    ∃ digits, CodeUnit n digits ∧ digits.length = 4 ∧
      input = Input.ofText digits ++ input.drop 4 := by
  unfold hex4 at h
  split at h
  · next s t u v rest =>
    split at h
    · next i j k l hi hj hk hl =>
      obtain ⟨a, rfl, ha⟩ := Option.bind_eq_some_iff.1 hi
      obtain ⟨b, rfl, hb⟩ := Option.bind_eq_some_iff.1 hj
      obtain ⟨c, rfl, hc⟩ := Option.bind_eq_some_iff.1 hk
      obtain ⟨d, rfl, hd⟩ := Option.bind_eq_some_iff.1 hl
      rw [← Except.ok.inj h]
      exact ⟨[a, b, c, d], .digits ha hb hc hd, rfl, rfl⟩
    · exact absurd h (by simp)
  · split at h <;> exact absurd h (by simp)

/-- The short escapes are those of the table. -/
lemma shortEscape?_eq_some_iff {e c : Char} :
    shortEscape? e = some c ↔ (e, c) ∈ shortEscapes := by
  constructor
  · intro h
    unfold shortEscape? at h
    split at h <;> cases h <;> decide
  · intro h
    simp only [shortEscapes, List.mem_cons, Prod.mk.injEq, List.not_mem_nil, or_false] at h
    rcases h with ⟨rfl, rfl⟩ | ⟨rfl, rfl⟩ | ⟨rfl, rfl⟩ | ⟨rfl, rfl⟩ | ⟨rfl, rfl⟩ | ⟨rfl, rfl⟩ |
      ⟨rfl, rfl⟩ | ⟨rfl, rfl⟩ <;> rfl

/-- The number of a character is that of no surrogate. -/
lemma toNat_not_surrogate (c : Char) :
    isLowSurrogate c.toNat = false ∧ isHighSurrogate c.toNat = false := by
  have hvalid : c.toNat.isValidChar := c.valid
  unfold Nat.isValidChar at hvalid
  simp only [isLowSurrogate, isHighSurrogate, Bool.and_eq_false_iff, decide_eq_false_iff_not]
  omega

/-- An escape is read as its character. -/
lemma escape_append {c : Char} {tail : List Char} (h : Escape c tail) (rest : Input) :
    escape (Input.ofText tail ++ rest) = .ok (c, tail.length) := by
  cases h with
  | @short e h =>
    have hshort := shortEscape?_eq_some_iff.2 h
    have hu : e ≠ 'u' := by
      intro he
      rw [he, show shortEscape? 'u' = none from rfl] at hshort
      exact absurd hshort (by simp)
    rw [ofText_cons, ofText_nil, List.cons_append, List.nil_append]
    unfold escape
    split
    · next heq => exact absurd heq (by simp)
    · next heq => exact absurd (Option.some.inj (List.cons.inj heq).1) hu
    · next heq =>
      obtain ⟨he, -⟩ := List.cons.inj heq
      rw [← Option.some.inj he, hshort]
      rfl
    · next heq => exact absurd (List.cons.inj heq).1 (by simp)
  | @code digits h =>
    obtain ⟨hlow, hhigh⟩ := toNat_not_surrogate c
    have hread : unicodeEscape (Input.ofText digits ++ rest) = .ok (c, 4) := by
      simp [unicodeEscape, hex4_append h, bind, Except.bind, hlow, hhigh]
    rw [ofText_cons, List.cons_append, escape, hread, List.length_cons, h.length]
    rfl
  | @pair high low first second hfirst hsecond hhigh hlow h =>
    have hjoin : joinSurrogates high low = c := by
      rw [joinSurrogates, ← h, Char.ofNat_toNat]
    -- the first number is a high surrogate, so that another escape has to follow
    have hnotlow : isLowSurrogate high = false := by
      simp only [isLowSurrogate, Bool.and_eq_false_iff, decide_eq_false_iff_not]
      omega
    have hishigh : isHighSurrogate high = true := by
      simp only [isHighSurrogate, Bool.and_eq_true, decide_eq_true_eq]
      exact hhigh
    have hislow : isLowSurrogate low = true := by
      simp only [isLowSurrogate, Bool.and_eq_true, decide_eq_true_eq]
      exact hlow
    have hdrop :
        (Input.ofText first ++ (some '\\' :: some 'u' :: (Input.ofText second ++ rest))).drop 4
          = some '\\' :: some 'u' :: (Input.ofText second ++ rest) := by
      have hfour : (Input.ofText first).length = 4 := by
        rw [Input.ofText, List.length_map, hfirst.length]
      rw [← hfour, List.drop_left]
    have hread : unicodeEscape
        (Input.ofText first ++ (some '\\' :: some 'u' :: (Input.ofText second ++ rest)))
        = .ok (c, 10) := by
      simp [unicodeEscape, hex4_append hfirst, hex4_append hsecond, bind, Except.bind, hnotlow,
        hishigh, hislow, hdrop, hjoin]
    have hsplit : Input.ofText ('u' :: (first ++ '\\' :: 'u' :: second)) ++ rest = some 'u' ::
        (Input.ofText first ++ (some '\\' :: some 'u' :: (Input.ofText second ++ rest))) := by simp
    rw [hsplit, escape, hread]
    simp [Except.map, hfirst.length, hsecond.length]

/-- What is read as a code point is one of its escapes. -/
lemma escape_of_unicodeEscape {input : Input} {c : Char} {n : Nat}
    (h : unicodeEscape input = .ok (c, n)) : ∃ tail, Escape c ('u' :: tail) ∧ tail.length = n ∧
      input = Input.ofText tail ++ input.drop n := by
  unfold unicodeEscape at h
  obtain ⟨high, hhex, h⟩ := of_bind h
  obtain ⟨first, hfirst, hlength, hinput⟩ := codeUnit_of_hex4 hhex
  split at h
  · exact absurd h (by simp)
  next hnotlow =>
  split at h
  · next hhigh =>
    -- a high surrogate stands for nothing without the low one behind it
    split at h
    · exact absurd h (by simp)
    · exact absurd h (by simp)
    · next rest hdrop =>
      obtain ⟨low, hhex', h⟩ := of_bind h
      obtain ⟨second, hsecond, hlength', hrest⟩ := codeUnit_of_hex4 hhex'
      split at h
      · next hlow =>
        obtain ⟨rfl, rfl⟩ := Prod.mk.inj (Except.ok.inj h)
        simp only [isHighSurrogate, isLowSurrogate, Bool.and_eq_true, decide_eq_true_eq]
          at hhigh hlow
        have hvalid : (0x10000 + (high - 0xD800) * 0x400 + (low - 0xDC00)).isValidChar := by
          unfold Nat.isValidChar
          omega
        refine ⟨first ++ '\\' :: 'u' :: second,
          .pair hfirst hsecond hhigh hlow (Utf8.toNat_ofNat hvalid), by simp [hlength, hlength'],
          ?_⟩
        -- behind the first number stand a backslash, the letter and the second number
        have hdrop' : input.drop 10 = rest.drop 4 := by
          rw [show 10 = 4 + 6 by rfl, ← List.drop_drop, hdrop]
          rfl
        rw [hdrop] at hinput
        rw [hdrop', hinput, ofText_append, ofText_cons, ofText_cons, List.append_assoc,
          List.cons_append, List.cons_append, ← hrest]
      · exact absurd h (by simp)
    · exact absurd h (by simp)
  · next hnothigh =>
    obtain ⟨rfl, rfl⟩ := Prod.mk.inj (Except.ok.inj h)
    have hvalid : high.isValidChar := by
      have hlt := hfirst.lt
      simp only [isHighSurrogate, isLowSurrogate, Bool.and_eq_true, decide_eq_true_eq]
        at hnothigh hnotlow
      unfold Nat.isValidChar
      omega
    refine ⟨first, .code ?_, hlength, hinput⟩
    rwa [Utf8.toNat_ofNat hvalid]

/-- What is read as an escape is one. -/
lemma escape_of_escape {input : Input} {c : Char} {n : Nat} (h : escape input = .ok (c, n)) :
    ∃ tail, Escape c tail ∧ input = Input.ofText tail ++ input.drop n := by
  unfold escape at h
  split at h
  · exact absurd h (by simp)
  · next rest =>
    obtain ⟨⟨c', k⟩, hcode, hpair⟩ := of_map h
    obtain ⟨rfl, rfl⟩ := Prod.mk.inj hpair
    obtain ⟨tail, hescape, hlength, hrest⟩ := escape_of_unicodeEscape hcode
    refine ⟨'u' :: tail, hescape, ?_⟩
    rw [List.drop_succ_cons, ofText_cons, List.cons_append, ← hrest]
  · next e rest hu =>
    split at h
    · next c' he =>
      obtain ⟨rfl, rfl⟩ := Prod.mk.inj (Except.ok.inj h)
      exact ⟨[e], .short (shortEscape?_eq_some_iff.1 he), rfl⟩
    · exact absurd h (by simp)
  · exact absurd h (by simp)

/-! ## Strings -/

lemma stringBody_skip (skipped input : Input) (read : List Symbol) :
    stringBody skipped.length read (skipped ++ input) = stringBody 0 read input := by
  induction skipped with
  | nil => rfl
  | cons s skipped ih => exact ih

/-- Characters are read up to the quotation mark. -/
lemma stringBody_characters {text written : List Char} (h : Characters text written)
    (read : List Symbol) (rest : Input) :
    stringBody 0 read (Input.ofText written ++ some '"' :: rest)
      = .ok (read.reverse ++ text.map some, rest) := by
  induction h generalizing read with
  | nil => simp [stringBody]
  | @plain c text written hquote hslash hcontrol h ih =>
    have hplain : isControl (some c) = false := by
      simp only [isControl, decide_eq_false_iff_not]
      omega
    rw [ofText_cons, List.cons_append, stringBody, if_neg (by simpa using hquote),
      if_neg (by simpa using hslash), hplain, if_neg (by decide), ih]
    simp
  | @escape c text written tail hescape h ih =>
    have hread := escape_append hescape (Input.ofText written ++ some '"' :: rest)
    have hlength : tail.length = (Input.ofText tail).length := by rw [Input.ofText, List.length_map]
    rw [ofText_cons, List.cons_append, ofText_append, List.append_assoc, stringBody,
      if_neg (by decide), if_pos rfl, hread, hlength]
    dsimp only
    rw [stringBody_skip, ih]
    simp

/-- What is read as the rest of a string is written as a text, if there is no stray byte in it. -/
lemma characters_of_stringBody {skip : Nat} {read symbols : List Symbol} {input rest : Input}
    (h : stringBody skip read input = .ok (symbols, rest)) :
    ∃ more, symbols = read.reverse ++ more ∧ ∀ text, more = text.map some →
      ∃ written, Characters text written ∧
        input.drop skip = Input.ofText written ++ some '"' :: rest := by
  -- on the input, in which what belongs to an escape that has been read is skipped one by one
  induction input generalizing skip read with
  | nil => cases skip <;> exact absurd h (by simp [stringBody])
  | cons s input ih =>
    cases skip with
    | succ skip => exact ih h
    | zero =>
      unfold stringBody at h
      split at h
      · next hquote =>
        obtain ⟨rfl, rfl⟩ := Prod.mk.inj (Except.ok.inj h)
        refine ⟨[], (List.append_nil _).symm, fun text htext => ?_⟩
        have hnil : text = [] := by simpa using htext.symm
        rw [hnil, hquote]
        exact ⟨[], .nil, rfl⟩
      next hquote =>
      split at h
      · next hslash =>
        cases hescape : escape input with
        | error e => simp [hescape] at h
        | ok p =>
          obtain ⟨c, n⟩ := p
          simp only [hescape] at h
          obtain ⟨tail, htail, hinput⟩ := escape_of_escape hescape
          obtain ⟨more, hmore, hrest⟩ := ih h
          refine ⟨some c :: more, by simpa using hmore, fun text htext => ?_⟩
          cases text with
          | nil => exact absurd htext (by simp)
          | cons d text =>
            obtain ⟨hd, htext⟩ := List.cons.inj htext
            obtain ⟨written, hwritten, hdrop⟩ := hrest text htext
            rw [← Option.some.inj hd]
            refine ⟨'\\' :: (tail ++ written), .escape htail hwritten, ?_⟩
            rw [List.drop_zero, hslash, hinput, hdrop]
            simp
      next hslash =>
      split at h
      · exact absurd h (by simp)
      · next hcontrol =>
        obtain ⟨more, hmore, hrest⟩ := ih h
        refine ⟨s :: more, by simpa using hmore, fun text htext => ?_⟩
        cases text with
        | nil => exact absurd htext (by simp)
        | cons c text =>
          obtain ⟨rfl, htail⟩ := List.cons.inj htext
          obtain ⟨written, hwritten, hdrop⟩ := hrest text htail
          have hplain : 0x20 ≤ c.toNat := by simpa [isControl] using hcontrol
          refine ⟨c :: written, .plain (by simpa using hquote) (by simpa using hslash) hplain
            hwritten, ?_⟩
          rw [List.drop_zero] at hdrop ⊢
          rw [hdrop]
          rfl

/-- Exactly the written forms of a text are read as a string. -/
theorem string_eq_ok_iff {input rest : Input} {s : String} : string input = .ok (s, rest) ↔
    ∃ written, Characters s.toList written ∧ input = Input.ofText written ++ some '"' :: rest := by
  constructor
  · intro h
    unfold string at h
    obtain ⟨⟨symbols, rest'⟩, hbody, h⟩ := of_bind h
    obtain ⟨more, hmore, hwritten⟩ := characters_of_stringBody hbody
    dsimp only at h
    split at h
    · next text htext =>
      obtain ⟨rfl, rfl⟩ := Prod.mk.inj (Except.ok.inj h)
      have hsymbols : more = text.map some := by
        rw [← symbols_of_characters? htext, hmore]
        rfl
      rw [String.toList_ofList]
      exact hwritten text hsymbols
    · exact absurd h (by simp)
  · rintro ⟨written, hwritten, rfl⟩
    have hbody := stringBody_characters hwritten [] rest
    rw [List.reverse_nil, List.nil_append] at hbody
    rw [string, hbody]
    simp [bind, Except.bind, Utf8.characters?_map_some]

lemma Quoted.starts {s : String} {token : List Char} (h : Quoted s token) : Starts token := by
  obtain ⟨written, -, rfl⟩ := h
  exact ⟨'"', _, rfl, by decide, by decide, by decide⟩

/-- A string in its quotes is found, whatever follows. -/
theorem glimpse_quoted {s : String} {token : List Char} (h : Quoted s token) (rest : Input) :
    glimpse (Input.ofText token ++ rest) = .ok (.str s, rest) := by
  obtain ⟨written, hwritten, rfl⟩ := h
  have hread : string (Input.ofText written ++ some '"' :: rest) = .ok (s, rest) :=
    string_eq_ok_iff.2 ⟨written, hwritten, rfl⟩
  have hblank : isBlank (some '"') = false := by decide
  have hsplit : Input.ofText ('"' :: (written ++ ['"'])) ++ rest
      = some '"' :: (Input.ofText written ++ some '"' :: rest) := by simp
  rw [hsplit, glimpse, skipBlank_cons hblank]
  simp only [hread, Except.map]

/-- What is found as a string is one in its quotes. -/
theorem quoted_of_glimpse {input rest : Input} {s : String}
    (h : glimpse input = .ok (.str s, rest)) :
    ∃ token, Quoted s token ∧ skipBlank input = Input.ofText token ++ rest := by
  have hfound := glimpsed h
  generalize skipBlank input = next at hfound ⊢
  generalize hstr : Found.str s = found at hfound
  cases hfound with
  | str hstring =>
    obtain rfl := Found.str.inj hstr
    obtain ⟨written, hwritten, rfl⟩ := string_eq_ok_iff.1 hstring
    exact ⟨_, ⟨written, hwritten, rfl⟩, by simp⟩
  | _ => exact absurd hstr.symm (by simp [Number.found_ne_str])

/-! ## Natural numbers -/

/-- A run of digits and what is after it are all there is. -/
lemma ofText_digitRun (input : Input) :
    Input.ofText (digitRun input) ++ afterDigits input = input := by
  induction input with
  | nil => rfl
  | cons s input ih =>
    cases hs : isDigit s with
    | false => simp [digitRun, afterDigits, hs]
    | true =>
      cases s with
      | none => exact absurd hs (by simp [isDigit])
      | some c =>
        rw [digitRun_cons hs, afterDigits_cons hs, ofText_cons, List.cons_append, ih]

/-- What is read as a natural number is its digits. -/
theorem natural_of_number {input rest : Input} {n : Nat}
    (h : number false input = .ok (.int n, rest)) :
    input = Input.ofText (Nat.toDigits 10 n) ++ rest := by
  obtain ⟨tail, rfl, -, h⟩ | ⟨c, tail, rfl, hdigit, hzero, h⟩ := number_cases h
  · obtain ⟨x, hx⟩ | ⟨-, hwhole, rfl⟩ := of_afterWhole h
    · exact absurd hx (by simp)
    · obtain rfl : n = 0 := Int.ofNat.inj (Number.int.inj hwhole)
      rfl
  · obtain ⟨x, hx⟩ | ⟨hleft, hwhole, rfl⟩ := of_afterWhole h
    · exact absurd hx (by simp)
    · have hvalue := (of_accumulate (Nat.zero_le _) (Prod.eta (accumulate 0 _)).symm).2
        (List.length_eq_zero_iff.1 hleft)
      have hn : n = Nat.ofDigitChars 10 (digitRun (some c :: tail)) 0 := by
        rw [← hvalue]
        exact Int.ofNat.inj (Number.int.inj hwhole)
      -- the first digit is no zero, so these are the digits of the number
      have hrun := digitRun_cons hdigit tail
      have hdigits : Nat.toDigits 10 (Nat.ofDigitChars 10 (digitRun (some c :: tail)) 0)
          = digitRun (some c :: tail) :=
        Digits.toDigits_ofDigitChars isDigit_of_digitRun (by rw [hrun]; simp)
          fun hhead => absurd (Option.some.inj (by rwa [hrun] at hhead)) hzero
      rw [hn, hdigits]
      exact (ofText_digitRun _).symm

/-- What is found as a natural number is its digits. -/
theorem natural_of_glimpse {input rest : Input} {n : Nat}
    (h : glimpse input = .ok (.int n, rest)) :
    skipBlank input = Input.ofText (Nat.toDigits 10 n) ++ rest := by
  have hfound := glimpsed h
  generalize skipBlank input = next at hfound ⊢
  generalize hint : Found.int n = found at hfound
  cases hfound with
  | @negative m _ _ hnumber =>
    -- what stands behind a sign is negative, or no whole number
    cases m with
    | float x => exact absurd hint (by simp [Number.found])
    | int k =>
      obtain rfl := Found.int.inj hint
      obtain ⟨x, hx⟩ | ⟨m, -, hm, -⟩ := of_number hnumber
      · exact absurd hx (by simp)
      · have hneg := neg_of_wholeNumber hm.symm
        omega
  | @natural m _ _ hnumber =>
    cases m with
    | float x => exact absurd hint (by simp [Number.found])
    | int k =>
      obtain rfl := Found.int.inj hint
      exact natural_of_number hnumber
  | _ => exact absurd hint (by simp)

/-! ## Blanks -/

lemma isBlank_of_mem {c : Char} (h : c ∈ [' ', '\t', '\n', '\r']) : isBlank (some c) = true := by
  simp only [List.mem_cons, List.not_mem_nil, or_false] at h
  rcases h with rfl | rfl | rfl | rfl <;> rfl

lemma Blank.append {text text' : List Char} (h : Blank text) (h' : Blank text') :
    Blank (text ++ text') := by
  intro c hc
  exact (List.mem_append.1 hc).elim (h c) (h' c)

/-- Blanks in front of a token are passed over. -/
theorem skipBlank_append {blank : List Char} (h : Blank blank) (rest : Input) :
    skipBlank (Input.ofText blank ++ rest) = skipBlank rest := by
  induction blank with
  | nil => rfl
  | cons c blank ih =>
    have hc := isBlank_of_mem (h c List.mem_cons_self)
    have hblank := ih fun d hd => h d (List.mem_cons_of_mem _ hd)
    rw [ofText_cons, List.cons_append, skipBlank, List.dropWhile_cons_of_pos hc]
    exact hblank

/-- What is passed over in front of a token is blanks. -/
theorem blank_skipBlank (input : Input) :
    ∃ blank, Blank blank ∧ input = Input.ofText blank ++ skipBlank input := by
  induction input with
  | nil => exact ⟨[], by simp [Blank], rfl⟩
  | cons s input ih =>
    by_cases hs : isBlank s = true
    · obtain ⟨blank, hblank, hinput⟩ := ih
      have hskip : skipBlank (s :: input) = skipBlank input := by simp [skipBlank, hs]
      have hchar : ∃ c, s = some c ∧ c ∈ [' ', '\t', '\n', '\r'] := by
        simp only [isBlank, Bool.or_eq_true, beq_iff_eq] at hs
        rcases hs with ((rfl | rfl) | rfl) | rfl <;> exact ⟨_, rfl, by decide⟩
      obtain ⟨c, rfl, hc⟩ := hchar
      refine ⟨c :: blank, fun d hd => ?_, ?_⟩
      · obtain rfl | hd := List.mem_cons.1 hd
        · exact hc
        · exact hblank d hd
      · rw [hskip, ofText_cons, List.cons_append, ← hinput]
    · exact ⟨[], by simp [Blank], (skipBlank_cons (by simpa using hs) input).symm⟩

/-! ## Tokens in a row -/

/-- An input that consists of tokens and blanks. -/
def Row (tokens : List (List Char)) (input : Input) : Prop :=
  ∃ text, Spaced tokens text ∧ input = Input.ofText text

lemma row_nil {input : Input} (h : skipBlank input = []) : Row [] input := by
  obtain ⟨blank, hblank, hinput⟩ := blank_skipBlank input
  rw [h, List.append_nil] at hinput
  exact ⟨blank, .nil hblank, hinput⟩

lemma row_cons {token : List Char} {tokens : List (List Char)} {input rest : Input}
    (h : skipBlank input = Input.ofText token ++ rest) (hrest : Row tokens rest) :
    Row (token :: tokens) input := by
  obtain ⟨blank, hblank, hinput⟩ := blank_skipBlank input
  obtain ⟨text, htext, rfl⟩ := hrest
  refine ⟨blank ++ (token ++ text), .cons hblank htext, ?_⟩
  rw [hinput, h, ofText_append, ofText_append]

lemma row_of_skipBlank {tokens : List (List Char)} {input : Input}
    (h : Row tokens (skipBlank input)) : Row tokens input := by
  obtain ⟨blank, hblank, hinput⟩ := blank_skipBlank input
  obtain ⟨text, htext, heq⟩ := h
  rw [hinput, heq, ← ofText_append]
  cases htext with
  | nil hblank' => exact ⟨_, .nil (hblank.append hblank'), rfl⟩
  | cons hblank' htext =>
    rw [← List.append_assoc]
    exact ⟨_, .cons (hblank.append hblank') htext, rfl⟩

lemma of_row_nil {input : Input} (h : Row [] input) : skipBlank input = [] := by
  obtain ⟨text, htext, rfl⟩ := h
  cases htext with
  | nil hblank =>
    have hskip := skipBlank_append hblank []
    rwa [List.append_nil] at hskip

/-- The first token of a row comes after blanks. -/
lemma of_row_cons {token : List Char} {tokens : List (List Char)} {input : Input}
    (h : Row (token :: tokens) input) :
    ∃ rest, skipBlank input = skipBlank (Input.ofText token ++ rest) ∧ Row tokens rest := by
  obtain ⟨text, htext, rfl⟩ := h
  cases htext with
  | @cons blank _ text _ hblank htext =>
    refine ⟨Input.ofText text, ?_, text, htext, rfl⟩
    rw [ofText_append, skipBlank_append hblank, ofText_append]

/-- The first token stands in front once the blanks are passed over. -/
theorem of_row_token {c : Char} {tail : List Char} {tokens : List (List Char)} {input : Input}
    (hc : isBlank (some c) = false) (h : Row ((c :: tail) :: tokens) input) :
    ∃ rest, skipBlank input = some c :: (Input.ofText tail ++ rest) ∧ Row tokens rest := by
  obtain ⟨rest, hskip, hrest⟩ := of_row_cons h
  rw [ofText_cons, List.cons_append, skipBlank_cons hc] at hskip
  exact ⟨rest, hskip, hrest⟩

/-- A mark that comes first in a row is found after the blanks. -/
lemma of_row_mark {c : Char} {tokens : List (List Char)} {input : Input}
    (hc : isBlank (some c) = false) (h : Row ([c] :: tokens) input) :
    ∃ rest, skipBlank input = some c :: rest ∧ Row tokens rest :=
  of_row_token hc h

/-- Tokens that may follow a value: none, or first a comma or a closing bracket. -/
def Ends (tokens : List (List Char)) : Prop :=
  ∀ token, tokens.head? = some token → token = [','] ∨ token = [']'] ∨ token = ['\x7d']

lemma ends_nil : Ends [] := fun _ h => absurd h (by simp)

lemma ends_cons {token : List Char} {tokens : List (List Char)}
    (h : token = [','] ∨ token = [']'] ∨ token = ['\x7d']) : Ends (token :: tokens) := by
  intro t ht
  rwa [← Option.some.inj ht]

/-- A number ends where a value may end, and at the blanks in front. -/
theorem stops_of_ends {tokens : List (List Char)} {input : Input} (h : Ends tokens)
    (hrow : Row tokens input) : Stops input := by
  obtain ⟨text, htext, rfl⟩ := hrow
  have hblank : ∀ c ∈ [' ', '\t', '\n', '\r'], ∀ rest, Stops (some c :: rest) := by
    intro c hc rest
    refine stops_cons rest ?_
    simp only [List.mem_cons, List.not_mem_nil, or_false] at hc
    rcases hc with rfl | rfl | rfl | rfl <;> decide
  cases htext with
  | nil hb =>
    cases text with
    | nil => exact stops_nil
    | cons c blank => exact hblank c (hb c List.mem_cons_self) _
  | @cons blank token text tokens hb htext =>
    cases blank with
    | cons c blank => exact hblank c (hb c List.mem_cons_self) _
    | nil =>
      obtain rfl | rfl | rfl := h token rfl
      all_goals exact stops_cons _ (by decide)

lemma of_nextElement_first {input next : Input}
    (h : nextElement true input = .ok (some next)) : next = skipBlank input := by
  unfold nextElement at h
  split at h
  · exact absurd h (by simp)
  · exact absurd h (by simp)
  · next heq =>
    rw [if_pos rfl] at h
    rw [heq, Option.some.inj (Except.ok.inj h)]

lemma of_nextElement_next {input next : Input}
    (h : nextElement false input = .ok (some next)) :
    ∃ behind, skipBlank input = some ',' :: behind ∧ next = skipBlank behind := by
  unfold nextElement at h
  split at h
  · exact absurd h (by simp)
  · exact absurd h (by simp)
  · next s behind _ heq =>
    rw [if_neg (by decide)] at h
    split at h
    · next hcomma =>
      refine ⟨behind, by rw [heq, hcomma], ?_⟩
      split at h
      · exact absurd h (by simp)
      · exact absurd h (by simp)
      · exact (Option.some.inj (Except.ok.inj h)).symm
    · exact absurd h (by simp)

lemma of_endList {input rest : Input} (h : endList input = .ok rest) :
    skipBlank input = some ']' :: rest := by
  unfold endList at h
  split at h
  · exact absurd h (by simp)
  · next heq => rw [heq, Except.ok.inj h]
  · split at h <;> exact absurd h (by simp)
  · exact absurd h (by simp)

lemma of_finish {input : Input} (h : finish input = .ok ()) : skipBlank input = [] := by
  unfold finish at h
  split at h
  · next heq => exact heq
  · exact absurd h (by simp)

lemma of_glimpse_sequence {input rest : Input} (h : glimpse input = .ok (.sequence, rest)) :
    skipBlank input = rest ∧ ∃ behind, rest = some '[' :: behind := by
  have hfound := glimpsed h
  generalize skipBlank input = next at hfound ⊢
  generalize hsequence : Found.sequence = found at hfound
  cases hfound with
  | sequence behind => exact ⟨rfl, behind, rfl⟩
  | _ => exact absurd hsequence.symm (by simp [Number.found_ne_sequence])

section congr

variable {input other : Input}

/-- Blanks in front do not change what is seen first. -/
lemma glimpse_congr (h : skipBlank input = skipBlank other) : glimpse input = glimpse other := by
  unfold glimpse
  rw [h]

/-- Blanks in front do not change what element comes next. -/
lemma nextElement_congr (first : Bool) (h : skipBlank input = skipBlank other) :
    nextElement first input = nextElement first other := by
  unfold nextElement
  rw [h]

/-- Blanks behind a comma do not matter either. -/
theorem nextElement_comma (h : skipBlank input = skipBlank other) :
    nextElement false (some ',' :: input) = nextElement false (some ',' :: other) := by
  rw [nextElement_cons_comma, nextElement_cons_comma, h]

end congr

end Switchboard.Json
