import Switchboard.Proofs.Toml.Strings
import Switchboard.Toml.Reader

/-!
# Lines of TOML as they are written and read

* `word_toDigits` reads a whole number that has been written.
* `Reads` says that a text is read as statements, whatever lines follow it; texts that are read so
  can be put together (`Reads.append`). `reads_setting` and `reads_header` are the two lines there
  are.
-/

namespace Switchboard.Toml

open Digits (isDigit_of_toDigits toDigits_of_pos)

/-! ## Whole numbers -/

section word

variable {digits rest : List Char}

lemma moreDigits_eq (h : ∀ c ∈ digits, c.isDigit = true) :
    moreDigits Char.isDigit digits = some digits := by
  induction digits with
  | nil => rfl
  | cons c digits ih =>
    have hc := h c List.mem_cons_self
    have hdigits := ih fun d hd => h d (List.mem_cons_of_mem _ hd)
    cases digits with
    | nil => simp [moreDigits, hc]
    | cons d digits => rw [moreDigits, if_pos hc, hdigits, Option.map_some]

/-- Digits without separators are read as they stand. -/
lemma digits_eq (h : ∀ c ∈ digits, c.isDigit = true) (hne : digits ≠ []) :
    Toml.digits Char.isDigit digits = some digits := by
  cases digits with
  | nil => exact absurd rfl hne
  | cons c digits =>
    rw [Toml.digits, if_pos (h c List.mem_cons_self),
      moreDigits_eq fun d hd => h d (List.mem_cons_of_mem _ hd), Option.map_some]

/-- A number is written with digits from its beginning. -/
lemma toDigits_ne_cons {n : Nat} {c : Char} {more : List Char} (hc : c.isDigit = false) :
    Nat.toDigits 10 n ≠ c :: more := by
  intro heq
  have hdigit := isDigit_of_toDigits c (heq ▸ List.mem_cons_self)
  rw [hc] at hdigit
  cases hdigit

/-- A number is written without zeros in front, as it has to be. -/
lemma wholeDigits_toDigits (n : Nat) :
    wholeDigits (Nat.toDigits 10 n) = some (Nat.toDigits 10 n) := by
  have hdigits := digits_eq (isDigit_of_toDigits (n := n)) Nat.toDigits_ne_nil
  unfold wholeDigits
  split
  · next heq =>
    -- only zero begins with a zero
    rw [hdigits] at heq
    have hzero := Option.some.inj heq
    by_cases hpos : 0 < n
    · obtain ⟨c, more, hmore, hc⟩ := toDigits_of_pos hpos
      rw [hmore] at hzero
      exact absurd (List.cons.inj hzero).1 hc
    · rw [show n = 0 by omega, show Nat.toDigits 10 0 = ['0'] from rfl] at hzero
      exact absurd hzero (by simp)
  · exact hdigits

lemma ne_of_test {p : Char → Bool} {c d : Char} (hc : p c = true) (hd : p d = false) : c ≠ d := by
  intro h
  rw [h, hd] at hc
  cases hc

lemma isDate_of_digits (h : ∀ c ∈ digits, c.isDigit = true) : isDate digits = false := by
  unfold isDate
  split
  · next heq =>
    have hmem : '-' ∈ digits := List.mem_of_mem_drop (by rw [heq]; exact List.mem_cons_self)
    exact absurd (h _ hmem) (by decide)
  · rfl

lemma isTime_of_digits (h : ∀ c ∈ digits, c.isDigit = true) : isTime digits = false := by
  have hclock : isClock (digits.take 5) = false := by
    unfold isClock
    split
    · next heq =>
      have hmem : ':' ∈ digits := List.mem_of_mem_take (by rw [heq]; simp)
      exact absurd (h _ hmem) (by decide)
    · rfl
  rw [isTime, hclock, Bool.false_and]

lemma isMoment_of_digits (h : ∀ c ∈ digits, c.isDigit = true) : isMoment digits = false := by
  have htake : ∀ c ∈ digits.take 10, c.isDigit = true := fun c hc => h c (List.mem_of_mem_take hc)
  rw [isMoment, isDate_of_digits h, isTime_of_digits h, isDate_of_digits htake]
  rfl

/-- A number within the bound is read back. -/
lemma int?_toDigits {n : Nat} (h : (n : Int) ≤ maxInt) :
    int? (Nat.toDigits 10 n) = some (n : Int) := by
  -- behind a zero there is no letter for another base
  have hletter {c : Char} {more : List Char} (hc : c.isDigit = false)
      (heq : Nat.toDigits 10 n = '0' :: c :: more) : False := by
    have hdigit := isDigit_of_toDigits c (heq ▸ List.mem_cons_of_mem _ List.mem_cons_self)
    rw [hc] at hdigit
    cases hdigit
  have hsign : sign (Nat.toDigits 10 n) = (false, Nat.toDigits 10 n) := by
    unfold sign
    split
    · next heq => exact absurd heq (toDigits_ne_cons rfl)
    · next heq => exact absurd heq (toDigits_ne_cons rfl)
    · rfl
  have hmin : minInt ≤ (n : Int) := by
    unfold minInt
    omega
  unfold int?
  split
  · next heq => exact (hletter rfl heq).elim
  · next heq => exact (hletter rfl heq).elim
  · next heq => exact (hletter rfl heq).elim
  · rw [hsign]
    simp [wholeDigits_toDigits, Nat.ofDigitChars_ten_toDigits, fitting, hmin, h]

/-- A number within the bound is read as one and not as a date. -/
lemma ofWord?_toDigits {n : Nat} (h : (n : Int) ≤ maxInt) :
    ofWord? (Nat.toDigits 10 n) = some (.int n) := by
  have htrue : Nat.toDigits 10 n ≠ "true".toList :=
    show Nat.toDigits 10 n ≠ 't' :: "rue".toList from toDigits_ne_cons rfl
  have hfalse : Nat.toDigits 10 n ≠ "false".toList :=
    show Nat.toDigits 10 n ≠ 'f' :: "alse".toList from toDigits_ne_cons rfl
  rw [ofWord?, if_neg htrue, if_neg hfalse, isMoment_of_digits isDigit_of_toDigits,
    if_neg (by decide), int?_toDigits h]

lemma isWordChar_of_isDigit {c : Char} (h : c.isDigit = true) : isWordChar c = true := by
  simp [isWordChar, Char.isAlphanum, h]

/-- A number is read up to the character that ends its word. -/
theorem word_toDigits {n : Nat} (h : (n : Int) ≤ maxInt)
    (hrest : ∀ c ∈ rest.head?, isWordChar c = false ∧ c ≠ ' ') :
    word (Nat.toDigits 10 n ++ rest) = some (.int n, rest) := by
  have hall : ∀ c ∈ Nat.toDigits 10 n, isWordChar c = true :=
    fun c hc => isWordChar_of_isDigit (isDigit_of_toDigits c hc)
  have hstop : ∀ c ∈ rest.head?, isWordChar c = false := fun c hc => (hrest c hc).1
  have hspace : rest.head? ≠ some ' ' := fun heq => (hrest ' ' heq).2 rfl
  rw [word, Digits.takeWhile_append hall hstop, Digits.dropWhile_append hall hstop]
  simp [hspace, ofWord?_toDigits h]

end word

/-! ## Values -/

/-- A text that is read as a value, if a line end follows. -/
structure Means (text : List Char) (v : Toml) : Prop where
  read : ∀ rest, value maxDepth (text ++ '\n' :: rest) = some (v, '\n' :: rest)
  head : ∃ c more, text = c :: more ∧ Text.isSpace c = false

lemma means_write (text : List Char) : Means (Text.write text) (.str (String.ofList text)) := by
  obtain ⟨q, body, hwrite, hq, hread⟩ := Text.stands_write text
  have hline : ∀ rest : List Char, ('\n' :: rest).head? ≠ some q := by
    rcases hq with rfl | rfl <;> simp
  refine ⟨fun rest => ?_, q, body, hwrite, by rcases hq with rfl | rfl <;> rfl⟩
  have hbody := hread ('\n' :: rest) (hline rest)
  rw [hwrite, List.cons_append]
  rcases hq with rfl | rfl <;> simp [value, hbody]

lemma means_toDigits {n : Nat} (h : (n : Int) ≤ maxInt) :
    Means (Nat.toDigits 10 n) (.int n) := by
  have hall := isDigit_of_toDigits (n := n)
  cases hdigits : Nat.toDigits 10 n with
  | nil => exact absurd hdigits Nat.toDigits_ne_nil
  | cons c more =>
    rw [hdigits] at hall
    have hc := hall c List.mem_cons_self
    have hspace : Text.isSpace c = false := by
      simp [Text.isSpace, ne_of_test hc (d := ' ') rfl, ne_of_test hc (d := '\t') rfl]
    refine ⟨fun rest => ?_, c, more, rfl, hspace⟩
    have hstop : ∀ d ∈ ('\n' :: rest).head?, isWordChar d = false ∧ d ≠ ' ' := by
      rintro d ⟨⟩
      decide
    have hword := word_toDigits h hstop
    rw [hdigits, List.cons_append] at hword
    rw [List.cons_append]
    -- a digit begins none of the other values
    unfold value
    split
    · next heq => exact absurd (List.cons.inj heq).1 (ne_of_test hc rfl)
    · next heq => exact absurd (List.cons.inj heq).1 (ne_of_test hc rfl)
    · next heq => exact absurd (List.cons.inj heq).1 (ne_of_test hc rfl)
    · next heq => exact absurd (List.cons.inj heq).1 (ne_of_test hc rfl)
    · exact hword

/-! ## Keys -/

/-- A key that needs no quotes. -/
structure IsBare (key : String) : Prop where
  nonempty : key.toList ≠ []
  bare : ∀ c ∈ key.toList, isBareChar c = true

instance (key : String) : Decidable (IsBare key) :=
  decidable_of_iff ((!key.toList.isEmpty && key.toList.all isBareChar) = true) <| by
    rw [Bool.and_eq_true, Bool.not_eq_true', List.isEmpty_eq_false_iff, List.all_eq_true]
    exact ⟨fun h => ⟨h.1, h.2⟩, fun h => ⟨h.nonempty, h.bare⟩⟩

lemma skipSpace_cons {c : Char} (h : Text.isSpace c = false) (rest : List Char) :
    skipSpace (c :: rest) = c :: rest := by
  rw [skipSpace, List.dropWhile_cons, h]
  rfl

lemma IsBare.cons {key : String} (h : IsBare key) :
    ∃ c more, key.toList = c :: more ∧ isBareChar c = true := by
  cases hkey : key.toList with
  | nil => exact absurd hkey h.nonempty
  | cons c more => exact ⟨c, more, rfl, h.bare c (by rw [hkey]; exact List.mem_cons_self)⟩

lemma isSpace_of_isBareChar {c : Char} (h : isBareChar c = true) : Text.isSpace c = false := by
  simp [Text.isSpace, ne_of_test h (d := ' ') rfl, ne_of_test h (d := '\t') rfl]

/-- A key is read up to the next character that cannot belong to it. -/
lemma keyPath_bare {key : String} (h : IsBare key) {rest : List Char}
    (hrest : ∀ c ∈ rest.head?, isBareChar c = false) (hdot : (skipSpace rest).head? ≠ some '.') :
    keyPath (key.toList ++ rest) = some (([], key), skipSpace rest) := by
  have htake := Digits.takeWhile_append h.bare hrest
  have hdrop := Digits.dropWhile_append h.bare hrest
  obtain ⟨c, more, hkey, hc⟩ := h.cons
  have hskip : skipSpace (key.toList ++ rest) = key.toList ++ rest := by
    rw [hkey, List.cons_append, skipSpace_cons (isSpace_of_isBareChar hc)]
  -- a bare key begins with no quote
  have hsimple : simpleKey (key.toList ++ rest) = some (key, rest) := by
    unfold simpleKey
    split
    · next heq =>
      rw [hkey, List.cons_append] at heq
      exact absurd (List.cons.inj heq).1 (ne_of_test hc rfl)
    · next heq =>
      rw [hkey, List.cons_append] at heq
      exact absurd (List.cons.inj heq).1 (ne_of_test hc rfl)
    · simp [htake, hdrop, h.nonempty]
  have hdotted (fuel : Nat) : dottedKeys (fuel + 1) (key.toList ++ rest)
      = some ([key], skipSpace rest) := by
    rw [dottedKeys, hskip, hsimple]
    simp only [Option.bind_eq_bind, Option.bind_some]
    split
    · next heq =>
      rw [heq] at hdot
      exact absurd rfl hdot
    · rfl
  rw [keyPath, hdotted]
  rfl

/-! ## Statements -/

/-- A text that is read as statements, whatever lines follow. -/
def Reads (text : List Char) (read : List Statement) : Prop :=
  ∀ fuel rest, (text ++ rest).length < fuel → ∃ left, rest.length < left ∧
    statements fuel (text ++ rest) = (statements left rest).map (read ++ ·)

lemma reads_nil : Reads [] [] := by
  intro fuel rest hfuel
  exact ⟨fuel, hfuel, by simp⟩

/-- Lines that follow one another are read one after the other. -/
theorem Reads.append {text text' : List Char} {read read' : List Statement} (h : Reads text read)
    (h' : Reads text' read') : Reads (text ++ text') (read ++ read') := by
  intro fuel rest hfuel
  rw [List.append_assoc] at hfuel ⊢
  -- the steps that the first text leaves are enough for the second
  obtain ⟨left, hleft, hread⟩ := h fuel _ hfuel
  obtain ⟨left', hleft', hread'⟩ := h' left rest hleft
  refine ⟨left', hleft', ?_⟩
  rw [hread, hread', Option.map_map]
  simp [Function.comp_def]

/-- A text that is read as statements is a document of them. -/
theorem Reads.statements_eq {text : List Char} {read : List Statement} (h : Reads text read) :
    statements (text.length + 1) text = some read := by
  obtain ⟨left, hleft, hread⟩ := h (text.length + 1) [] (by simp)
  rw [List.append_nil] at hread
  cases left with
  | zero => exact absurd hleft (Nat.lt_irrefl 0)
  | succ left =>
    have hnil : statements (left + 1) [] = some [] := rfl
    rw [hread, hnil, Option.map_some, List.append_nil]

/-- A line that holds one statement. -/
lemma reads_statement {text : List Char} {first : Statement} {c : Char} {more : List Char}
    (htext : text = c :: more) (hspace : Text.isSpace c = false)
    (hblank : c ≠ '\n' ∧ c ≠ '\r' ∧ c ≠ '#')
    (h : ∀ rest, statement (text ++ '\n' :: rest) = some (first, '\n' :: rest)) :
    Reads (text ++ ['\n']) [first] := by
  intro fuel rest hfuel
  cases fuel with
  | zero => exact absurd hfuel (Nat.not_lt_zero _)
  | succ fuel =>
    have hsplit : text ++ ['\n'] ++ rest = text ++ '\n' :: rest := by simp
    rw [hsplit] at hfuel ⊢
    rw [List.length_append, List.length_cons] at hfuel
    have hread := h rest
    have hend : endLine ('\n' :: rest) = some rest := rfl
    have hskip : skipSpace (text ++ '\n' :: rest) = text ++ '\n' :: rest := by
      rw [htext, List.cons_append, skipSpace_cons hspace]
    have hnotblank : isBlankLine (text ++ '\n' :: rest) = false := by
      rw [htext, List.cons_append]
      simp [isBlankLine, hblank]
    -- one statement uses one unit of fuel, and there is one for every character
    refine ⟨fuel, by omega, ?_⟩
    rw [statements, hskip]
    split
    · next heq =>
      rw [htext] at heq
      exact absurd heq (by simp)
    · rw [hnotblank, if_neg (by decide), hread]
      simp only [Option.bind_eq_bind, Option.bind_some, hend]
      cases statements fuel rest <;> rfl

/-- An empty line. -/
theorem reads_blank : Reads ['\n'] [] := by
  intro fuel rest hfuel
  cases fuel with
  | zero => exact absurd hfuel (Nat.not_lt_zero _)
  | succ fuel =>
    have hend : endLine ('\n' :: rest) = some rest := rfl
    have hread : statements (fuel + 1) ('\n' :: rest) = statements fuel rest := by
      rw [statements, skipSpace_cons rfl]
      simp [isBlankLine, hend]
    refine ⟨fuel, Nat.lt_of_succ_lt_succ hfuel, ?_⟩
    rw [List.singleton_append, hread]
    simp

/-- A key and a value with an equals sign and blanks between them. -/
theorem reads_setting {key : String} {text : List Char} {v : Toml} (hkey : IsBare key)
    (htext : Means text v) :
    Reads (key.toList ++ ' ' :: '=' :: ' ' :: text ++ ['\n']) [.entry ⟨[], key, v⟩] := by
  obtain ⟨c, more, hcons, hc⟩ := hkey.cons
  obtain ⟨d, tail, htail, hd⟩ := htext.head
  have hblank : c ≠ '\n' ∧ c ≠ '\r' ∧ c ≠ '#' :=
    ⟨ne_of_test hc rfl, ne_of_test hc rfl, ne_of_test hc rfl⟩
  refine reads_statement (by rw [hcons]; rfl) (isSpace_of_isBareChar hc) hblank fun rest => ?_
  have hsplit : key.toList ++ ' ' :: '=' :: ' ' :: text ++ '\n' :: rest
      = key.toList ++ ' ' :: '=' :: ' ' :: (text ++ '\n' :: rest) := by simp
  have hpath : keyPath (key.toList ++ ' ' :: '=' :: ' ' :: (text ++ '\n' :: rest))
      = some (([], key), '=' :: ' ' :: (text ++ '\n' :: rest)) :=
    keyPath_bare hkey (by simp [isBareChar]) (by simp [skipSpace, Text.isSpace])
  have hskip : skipSpace (' ' :: (text ++ '\n' :: rest)) = text ++ '\n' :: rest := by
    rw [htail]
    exact skipSpace_cons hd _
  have hdefinition : definition (value maxDepth)
      (key.toList ++ ' ' :: '=' :: ' ' :: (text ++ '\n' :: rest))
      = some (⟨[], key, v⟩, '\n' :: rest) := by
    rw [definition, hpath]
    simp [expect, hskip, htext.read]
  rw [hsplit]
  unfold statement
  split
  · next heq =>
    rw [hcons] at heq
    exact absurd (List.cons.inj heq).1 (ne_of_test hc rfl)
  · rw [hdefinition, Option.map_some]

/-- The header of a table. -/
theorem reads_header {name : String} (h : IsBare name) :
    Reads ('[' :: (name.toList ++ [']']) ++ ['\n']) [.table [] name] := by
  obtain ⟨c, more, hcons, hc⟩ := h.cons
  refine reads_statement rfl rfl (by decide) fun rest => ?_
  have hsplit : '[' :: (name.toList ++ [']']) ++ '\n' :: rest
      = '[' :: (name.toList ++ ']' :: '\n' :: rest) := by simp
  have hpath : keyPath (name.toList ++ ']' :: '\n' :: rest)
      = some (([], name), ']' :: '\n' :: rest) :=
    keyPath_bare h (by simp [isBareChar]) (by simp [skipSpace, Text.isSpace])
  rw [hsplit, statement]
  unfold header
  split
  · next heq =>
    rw [hcons] at heq
    exact absurd (List.cons.inj heq).1 (ne_of_test hc rfl)
  · rw [hpath]
    rfl

end Switchboard.Toml
