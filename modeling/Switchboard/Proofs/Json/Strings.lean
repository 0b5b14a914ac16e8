import Mathlib.Algebra.GroupWithZero.Nat
import Switchboard.Proofs.Text.Utf8

/-!
# Strings as they are written and read

* `string_writeString` reads back a string that has been written, whatever follows.
* `size_of_string` says that no other spelling of a string is shorter.
-/

namespace Switchboard.Json

/-! ## Results of steps -/

lemma of_bind {ε α β : Type} {x : Except ε α} {f : α → Except ε β} {b : β}
    (h : (x >>= f) = .ok b) : ∃ a, x = .ok a ∧ f a = .ok b := by
  cases x with
  | error e => exact absurd h (by simp [bind, Except.bind])
  | ok a => exact ⟨a, rfl, h⟩

lemma of_map {ε α β : Type} {x : Except ε α} {f : α → β} {b : β} (h : x.map f = .ok b) :
    ∃ a, x = .ok a ∧ f a = b := by
  cases x with
  | error e => exact absurd h (by simp [Except.map])
  | ok a => exact ⟨a, rfl, Except.ok.inj h⟩

lemma ok_of_toOption {ε α : Type} {x : Except ε α} {a : α} (h : x.toOption = some a) :
    x = .ok a := by
  cases x with
  | error e => exact absurd h (by simp [Except.toOption])
  | ok b => rw [Option.some.inj h]

/-! ## Sizes of texts -/

@[simp] lemma byteSize_nil : byteSize [] = 0 := rfl

@[simp] lemma byteSize_cons (s : Symbol) (input : Input) :
    byteSize (s :: input) = Utf8.symbolSize s + byteSize input := rfl

@[simp] lemma byteSize_append (input rest : Input) :
    byteSize (input ++ rest) = byteSize input + byteSize rest := by
  induction input with
  | nil => simp
  | cons s input ih => rw [List.cons_append, byteSize_cons, byteSize_cons, ih, Nat.add_assoc]

lemma byteSize_take_add_drop (input : Input) (n : Nat) :
    byteSize (input.take n) + byteSize (input.drop n) = byteSize input := by
  rw [← byteSize_append, List.take_append_drop]

lemma one_le_symbolSize (s : Symbol) : 1 ≤ Utf8.symbolSize s := by
  cases s with
  | none => exact Nat.le_refl 1
  | some c => exact c.utf8Size_pos

/-- Every symbol has a byte at least. -/
lemma length_le_byteSize (input : Input) : input.length ≤ byteSize input := by
  induction input with
  | nil => simp
  | cons s input ih =>
    have hs := one_le_symbolSize s
    rw [List.length_cons, byteSize_cons]
    omega

@[simp] lemma ofText_nil : Input.ofText [] = [] := rfl

@[simp] lemma ofText_cons (c : Char) (text : List Char) :
    Input.ofText (c :: text) = some c :: Input.ofText text := rfl

@[simp] lemma ofText_append (text rest : List Char) :
    Input.ofText (text ++ rest) = Input.ofText text ++ Input.ofText rest := List.map_append

/-- Every symbol that is dropped takes a byte away at least. -/
lemma byteSize_drop_add_le {input : Input} {n : Nat} (h : n ≤ input.length) :
    byteSize (input.drop n) + n ≤ byteSize input := by
  have htake := length_le_byteSize (input.take n)
  have hsplit := byteSize_take_add_drop input n
  rw [List.length_take_of_le h] at htake
  omega

/-! ## Characters -/

/-- How a character is written in a string: by a short escape, by its number, or as it is. -/
inductive Spelling (c : Char) : List Char → Prop
  | short {e : Char} (he : shortEscape? e = some c) (hu : e ≠ 'u') : Spelling c ['\\', e]
  | code (h : c.toNat < 0x20) : Spelling c
      ['\\', 'u', '0', '0', hexDigit (c.toNat / 16), hexDigit (c.toNat % 16)]
  | plain (hquote : c ≠ '"') (hslash : c ≠ '\\') (h : 0x20 ≤ c.toNat) : Spelling c [c]

/-- Every character is spelled as it is written. -/
lemma spelling_writeChar (c : Char) : Spelling c (writeChar c) := by
  unfold writeChar
  split
  · next h => subst h; exact .short rfl (by decide)
  next hquote =>
  split
  · next h => subst h; exact .short rfl (by decide)
  next hslash =>
  split
  · next h => subst h; exact .short rfl (by decide)
  split
  · next h => subst h; exact .short rfl (by decide)
  split
  · next h => subst h; exact .short rfl (by decide)
  split
  · next h => subst h; exact .short rfl (by decide)
  split
  · next h => subst h; exact .short rfl (by decide)
  split
  · next h => exact .code h
  · next h => exact .plain hquote hslash (by omega)

/-- Plain characters are written as they are. -/
lemma writeChar_of_plain {c : Char} (hquote : c ≠ '"') (hslash : c ≠ '\\')
    (h : 0x20 ≤ c.toNat) : writeChar c = [c] := by
  have hne : ∀ d : Char, d.toNat < 0x20 → c ≠ d := by
    intro d hd hcd
    rw [hcd] at h
    omega
  unfold writeChar
  rw [if_neg hquote, if_neg hslash, if_neg (hne _ (by decide)), if_neg (hne _ (by decide)),
    if_neg (hne _ (by decide)), if_neg (hne _ (by decide)), if_neg (hne _ (by decide)),
    if_neg (by omega)]

lemma value?_hexDigit : ∀ n, n < 16 → Hex.value? (hexDigit n) = some n := by decide

/-- The digits of a control character are read as the character. -/
lemma unicodeEscape_code {c : Char} (h : c.toNat < 0x20) (rest : Input) :
    unicodeEscape (some '0' :: some '0' :: some (hexDigit (c.toNat / 16)) ::
      some (hexDigit (c.toNat % 16)) :: rest) = .ok (c, 4) := by
  have hfirst := value?_hexDigit (c.toNat / 16) (by omega)
  have hlast := value?_hexDigit (c.toNat % 16) (by omega)
  have hzero : Hex.value? '0' = some 0 := rfl
  have hvalue : ((0 * 16 + 0) * 16 + c.toNat / 16) * 16 + c.toNat % 16 = c.toNat := by omega
  have hhex : hex4 (some '0' :: some '0' :: some (hexDigit (c.toNat / 16)) ::
      some (hexDigit (c.toNat % 16)) :: rest) = .ok c.toNat := by
    simp only [hex4, hexValue?, Option.bind_some, hzero, hfirst, hlast, hvalue]
  have hlow : isLowSurrogate c.toNat = false := by simp [isLowSurrogate]; omega
  have hhigh : isHighSurrogate c.toNat = false := by simp [isHighSurrogate]; omega
  simp only [unicodeEscape, hhex, bind, Except.bind, hlow, hhigh, Bool.false_eq_true, if_false,
    Char.ofNat_toNat]

/-- A character that has been written is read. -/
lemma stringBody_writeChar (c : Char) (read : List Symbol) (rest : Input) :
    stringBody 0 read (Input.ofText (writeChar c) ++ rest)
      = stringBody 0 (some c :: read) rest := by
  have hspelling := spelling_writeChar c
  generalize writeChar c = text at hspelling ⊢
  cases hspelling with
  | @short e he hu =>
    have hescape : escape (some e :: rest) = .ok (c, 1) := by
      unfold escape
      split
      · next h => exact absurd h (by simp)
      · next h => exact absurd (List.cons.inj h).1 (by simpa using hu)
      · next h =>
        cases (List.cons.inj h).1
        simp only [he]
      · next h => exact absurd (List.cons.inj h).1 (by simp)
    simp [stringBody, hescape]
  | code h =>
    have hescape := unicodeEscape_code h rest
    simp [stringBody, escape, hescape, Except.map]
  | plain hquote hslash h =>
    have hcontrol : isControl (some c) = false := by simp [isControl]; omega
    simp [stringBody, hquote, hslash, hcontrol]

/-- What is written for a text is read back. -/
lemma stringBody_write (text : List Char) (read : List Symbol) (rest : Input) :
    stringBody 0 read (Input.ofText (text.flatMap writeChar) ++ rest)
      = stringBody 0 ((text.map some).reverse ++ read) rest := by
  induction text generalizing read with
  | nil => rfl
  | cons c text ih =>
    rw [List.flatMap_cons, ofText_append, List.append_assoc, stringBody_writeChar, ih]
    simp

/-- A string that has been written is read, up to its closing quote. -/
theorem string_writeString (s : String) (rest : Input) :
    ∃ body, Input.ofText (writeString s) = some '"' :: body ∧
      string (body ++ rest) = .ok (s, rest) := by
  refine ⟨Input.ofText (s.toList.flatMap writeChar ++ ['"']), rfl, ?_⟩
  have hbody : stringBody 0 [] (Input.ofText (s.toList.flatMap writeChar ++ ['"']) ++ rest)
      = .ok (s.toList.map some, rest) := by
    rw [ofText_append, List.append_assoc, stringBody_write]
    simp [stringBody]
  unfold string
  rw [hbody]
  simp [bind, Except.bind, Utf8.characters?_map_some]

/-! ## No spelling is shorter -/

/-- The bytes that a symbol of a string takes when it is written. -/
def writtenSize : Symbol → Nat
  | some c => byteSize (Input.ofText (writeChar c))
  | none => 1

lemma utf8Size_hexDigit : ∀ n, n < 16 → (hexDigit n).utf8Size = 1 := by decide

lemma utf8Size_of_shortEscape? {e c : Char} (h : shortEscape? e = some c) : e.utf8Size = 1 := by
  unfold shortEscape? at h
  split at h <;> cases h <;> rfl

lemma writtenSize_of_shortEscape? {e c : Char} (h : shortEscape? e = some c) :
    writtenSize (some c) ≤ 2 := by
  unfold shortEscape? at h
  split at h <;> cases h <;> decide

/-- No character is spelled with more than six bytes. -/
lemma Spelling.size_le {c : Char} {text : List Char} (h : Spelling c text) :
    byteSize (Input.ofText text) ≤ 6 := by
  cases h with
  | short he hu =>
    have hsize := utf8Size_of_shortEscape? he
    have hslash : ('\\').utf8Size = 1 := rfl
    simp [Utf8.symbolSize, hsize, hslash]
  | code hlt =>
    have hfirst := utf8Size_hexDigit (c.toNat / 16) (by omega)
    have hlast := utf8Size_hexDigit (c.toNat % 16) (by omega)
    have hslash : ('\\').utf8Size = 1 := rfl
    have hu : ('u').utf8Size = 1 := rfl
    have hzero : ('0').utf8Size = 1 := rfl
    simp [Utf8.symbolSize, hfirst, hlast, hslash, hu, hzero]
  | plain hquote hslash hlow =>
    have hc := c.utf8Size_le_four
    simp [Utf8.symbolSize]
    omega

/-- No character is written with more than six bytes. -/
lemma writtenSize_le_six (c : Char) : writtenSize (some c) ≤ 6 := (spelling_writeChar c).size_le

/-- A symbol that may stand as it is takes no more bytes than that when it is written. -/
lemma writtenSize_le_symbolSize {s : Symbol} (hquote : s ≠ some '"') (hslash : s ≠ some '\\')
    (hcontrol : ¬isControl s) : writtenSize s ≤ Utf8.symbolSize s := by
  cases s with
  | none => exact Nat.le_refl 1
  | some c =>
    have hlow : ¬c.toNat < 0x20 := by simpa [isControl] using hcontrol
    have hplain : writeChar c = [c] :=
      writeChar_of_plain (by simpa using hquote) (by simpa using hslash) (by omega)
    rw [writtenSize, hplain, ofText_cons, byteSize_cons]
    exact Nat.le_refl _

lemma length_of_hex4 {input : Input} {n : Nat} (h : hex4 input = .ok n) : 4 ≤ input.length := by
  unfold hex4 at h
  split at h
  · simp
  · split at h <;> exact absurd h (by simp)

/-- An escape has four digits at least, and all of it is there. -/
lemma length_of_unicodeEscape {input : Input} {c : Char} {n : Nat}
    (h : unicodeEscape input = .ok (c, n)) : 4 ≤ n ∧ n ≤ input.length := by
  unfold unicodeEscape at h
  obtain ⟨high, hhigh, h⟩ := of_bind h
  have hlen := length_of_hex4 hhigh
  split at h
  · exact absurd h (by simp)
  split at h
  · split at h
    · exact absurd h (by simp)
    · exact absurd h (by simp)
    · next rest hdrop =>
      obtain ⟨low, hlow, h⟩ := of_bind h
      have hlen' := length_of_hex4 hlow
      -- the second of a pair of surrogates stands behind the first
      have hrest : input.length - 4 = rest.length + 2 := by
        rw [← List.length_drop, hdrop]
        rfl
      split at h
      · simp only [Except.ok.injEq, Prod.mk.injEq] at h
        omega
      · exact absurd h (by simp)
    · exact absurd h (by simp)
  · simp only [Except.ok.injEq, Prod.mk.injEq] at h
    omega

/-- An escape is no shorter than what is written for its character. -/
lemma size_of_escape {input : Input} {c : Char} {n : Nat} (h : escape input = .ok (c, n)) :
    writtenSize (some c) + byteSize (input.drop n) ≤ 1 + byteSize input := by
  unfold escape at h
  split at h
  · exact absurd h (by simp)
  · next rest =>
    obtain ⟨⟨c', k⟩, hcode, hpair⟩ := of_map h
    obtain ⟨rfl, rfl⟩ := Prod.mk.inj hpair
    obtain ⟨hfour, hlen⟩ := length_of_unicodeEscape hcode
    -- a number takes six bytes with its backslash, and no character takes more
    have hsix := writtenSize_le_six c'
    have hdrop := byteSize_drop_add_le hlen
    have hu : Utf8.symbolSize (some 'u') = 1 := rfl
    rw [List.drop_succ_cons, byteSize_cons, hu]
    omega
  · next e rest hu =>
    split at h
    · next c' he =>
      simp only [Except.ok.injEq, Prod.mk.injEq] at h
      obtain ⟨rfl, rfl⟩ := h
      have htwo := writtenSize_of_shortEscape? he
      have hone := one_le_symbolSize (some e)
      rw [List.drop_succ_cons, List.drop_zero, byteSize_cons]
      omega
    · exact absurd h (by simp)
  · exact absurd h (by simp)

/-- No spelling of a string's symbols is shorter than the one that is written. -/
lemma size_of_stringBody {skip : Nat} {read : List Symbol} {input : Input}
    {symbols : List Symbol} {rest : Input} (h : stringBody skip read input = .ok (symbols, rest)) :
    (symbols.map writtenSize).sum + byteSize rest + 1
      ≤ (read.map writtenSize).sum + byteSize (input.drop skip) := by
  -- over the input, with what is still to be skipped of an escape
  induction input generalizing skip read with
  | nil => cases skip <;> exact absurd h (by simp [stringBody])
  | cons s input ih =>
    cases skip with
    | succ skip => exact ih (by rwa [stringBody] at h)
    | zero =>
      unfold stringBody at h
      rw [List.drop_zero, byteSize_cons]
      split at h
      · next hquote =>
        subst hquote
        simp only [Except.ok.injEq, Prod.mk.injEq] at h
        obtain ⟨rfl, rfl⟩ := h
        have hone : Utf8.symbolSize (some '"') = 1 := rfl
        rw [List.map_reverse, List.sum_reverse, hone]
        omega
      next hquote =>
      split at h
      · -- an escape, of which the loop then skips the rest
        next hslash =>
        subst hslash
        have hone : Utf8.symbolSize (some '\\') = 1 := rfl
        cases hescape : escape input with
        | error e => simp [hescape] at h
        | ok p =>
          obtain ⟨c, n⟩ := p
          simp only [hescape] at h
          have hrest := ih h
          have hsize := size_of_escape hescape
          rw [List.map_cons, List.sum_cons] at hrest
          omega
      next hslash =>
      split at h
      · exact absurd h (by simp)
      · next hcontrol =>
        have hrest := ih h
        have hsize := writtenSize_le_symbolSize hquote hslash hcontrol
        rw [List.map_cons, List.sum_cons, List.drop_zero] at hrest
        omega

lemma symbols_of_characters? {symbols : List Symbol} {cs : List Char}
    (h : Utf8.characters? symbols = some cs) : symbols = cs.map some := by
  induction symbols generalizing cs with
  | nil =>
    rw [← Option.some.inj h]
    rfl
  | cons s symbols ih =>
    cases s with
    | none => exact absurd h (by simp [Utf8.characters?])
    | some c =>
      obtain ⟨cs', hcs', rfl⟩ := Option.map_eq_some_iff.1 h
      rw [ih hcs', List.map_cons]

lemma byteSize_flatMap_writeChar (cs : List Char) :
    byteSize (Input.ofText (cs.flatMap writeChar)) = ((cs.map some).map writtenSize).sum := by
  induction cs with
  | nil => rfl
  | cons c cs ih =>
    rw [List.flatMap_cons, ofText_append, byteSize_append, ih]
    rfl

/-- A text is written with its characters and two quotation marks. -/
lemma byteSize_writeString (s : String) :
    byteSize (Input.ofText (writeString s)) = ((s.toList.map some).map writtenSize).sum + 2 := by
  have hone : Utf8.symbolSize (some '"') = 1 := rfl
  rw [writeString, ofText_cons, ofText_append, byteSize_cons, byteSize_append,
    byteSize_flatMap_writeChar, ofText_cons, ofText_nil, byteSize_cons, byteSize_nil, hone]
  omega

/-- No spelling of a string is shorter than the one that is written. -/
theorem size_of_string {input rest : Input} {s : String} (h : string input = .ok (s, rest)) :
    byteSize (Input.ofText (writeString s)) + byteSize rest ≤ 1 + byteSize input := by
  unfold string at h
  obtain ⟨⟨symbols, rest'⟩, hbody, h⟩ := of_bind h
  have hsize := size_of_stringBody hbody
  dsimp only at h
  split at h
  · next cs hcs =>
    obtain ⟨rfl, rfl⟩ := Prod.mk.inj (Except.ok.inj h)
    rw [symbols_of_characters? hcs, List.map_nil, List.sum_nil, List.drop_zero] at hsize
    rw [byteSize_writeString, String.toList_ofList]
    omega
  · exact absurd h (by simp)

end Switchboard.Json
