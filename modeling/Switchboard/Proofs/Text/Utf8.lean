import Mathlib.Tactic.Lemma
import Switchboard.Json.Scan

/-!
# Characters and their bytes

* `symbols_encode` reads back the bytes of a text, followed by any others, and `encode_of_symbols`
  says that a text is read from no other bytes.
* `byteSize_symbols` says that symbols are as many bytes long as what they were read from.
-/

namespace Switchboard
namespace Utf8

/-! ## One character -/

lemma toNat_ofNat_of_lt {k : Nat} (h : k < 256) : (UInt8.ofNat k).toNat = k := by
  rw [UInt8.toNat_ofNat']
  exact Nat.mod_eq_of_lt h

lemma lt_iff {k : Nat} (h : k < 256) (b : UInt8) : UInt8.ofNat k < b ↔ k < b.toNat := by
  rw [UInt8.lt_iff_toNat_lt, toNat_ofNat_of_lt h]

lemma not_lt_of_le {k : Nat} {b : UInt8} (hk : k < 256) (h : b.toNat ≤ k) :
    ¬UInt8.ofNat k < b := fun hlt => Nat.not_lt.2 h ((lt_iff hk b).1 hlt)

lemma isContinuation_ofNat {k : Nat} (h : 128 ≤ k) (h' : k < 192) :
    isContinuation (UInt8.ofNat k) = true := by
  have hlow : (0x80 : UInt8) ≤ UInt8.ofNat k := by
    rw [UInt8.le_iff_toNat_le, toNat_ofNat_of_lt (by omega)]
    exact h
  have hhigh : UInt8.ofNat k < 0xC0 := (lt_iff (by omega) _).2 h'
  simp [isContinuation, hlow, hhigh]

lemma scalar?_toNat {low : Nat} {c : Char} (h : low ≤ c.toNat) : scalar? low c.toNat = some c := by
  rw [scalar?, if_pos ⟨h, c.valid⟩, Char.ofNat_toNat]

lemma first?_one {k : Nat} {c : Char} (rest : List UInt8) (hk : k < 128) (hc : c.toNat = k) :
    first? (UInt8.ofNat k) rest = some (c, 0) := by
  have h : UInt8.ofNat k < 0x80 := (lt_iff (by omega) _).2 hk
  unfold first?
  rw [if_pos h, toNat_ofNat_of_lt (by omega), ← hc, Char.ofNat_toNat]

lemma first?_two {k l : Nat} {c : Char} (rest : List UInt8) (hk : 194 ≤ k) (hk' : k < 224)
    (hl : 128 ≤ l) (hl' : l < 192) (hc : c.toNat = k % 32 * 64 + l % 64) :
    first? (UInt8.ofNat k) (UInt8.ofNat l :: rest) = some (c, 1) := by
  have h₁ : ¬UInt8.ofNat k < 0x80 := not_lt_of_le (by omega) (Nat.le_trans (by decide) hk)
  have h₂ : ¬UInt8.ofNat k < 0xC2 := not_lt_of_le (by omega) (Nat.le_trans (by decide) hk)
  have h₃ : UInt8.ofNat k < 0xE0 := (lt_iff (by omega) _).2 hk'
  unfold first?
  rw [if_neg h₁, if_neg h₂, if_pos h₃]
  simp only [isContinuation_ofNat hl hl', if_true, payload]
  rw [toNat_ofNat_of_lt (by omega), toNat_ofNat_of_lt (by omega), ← hc, scalar?_toNat (by omega)]
  rfl

lemma first?_three {k l m : Nat} {c : Char} (rest : List UInt8) (hk : 224 ≤ k) (hk' : k < 240)
    (hl : 128 ≤ l) (hl' : l < 192) (hm : 128 ≤ m) (hm' : m < 192) (hlow : 0x800 ≤ c.toNat)
    (hc : c.toNat = k % 16 * 4096 + l % 64 * 64 + m % 64) :
    first? (UInt8.ofNat k) (UInt8.ofNat l :: UInt8.ofNat m :: rest) = some (c, 2) := by
  have h₁ : ¬UInt8.ofNat k < 0x80 := not_lt_of_le (by omega) (Nat.le_trans (by decide) hk)
  have h₂ : ¬UInt8.ofNat k < 0xC2 := not_lt_of_le (by omega) (Nat.le_trans (by decide) hk)
  have h₃ : ¬UInt8.ofNat k < 0xE0 := not_lt_of_le (by omega) (Nat.le_trans (by decide) hk)
  have h₄ : UInt8.ofNat k < 0xF0 := (lt_iff (by omega) _).2 hk'
  unfold first?
  rw [if_neg h₁, if_neg h₂, if_neg h₃, if_pos h₄]
  simp only [isContinuation_ofNat hl hl', isContinuation_ofNat hm hm', Bool.and_self, if_true,
    payload]
  rw [toNat_ofNat_of_lt (by omega), toNat_ofNat_of_lt (by omega), toNat_ofNat_of_lt (by omega),
    ← hc, scalar?_toNat hlow]
  rfl

lemma first?_four {k l m o : Nat} {c : Char} (rest : List UInt8) (hk : 240 ≤ k) (hk' : k < 245)
    (hl : 128 ≤ l) (hl' : l < 192) (hm : 128 ≤ m) (hm' : m < 192) (ho : 128 ≤ o) (ho' : o < 192)
    (hlow : 0x10000 ≤ c.toNat)
    (hc : c.toNat = k % 8 * 262144 + l % 64 * 4096 + m % 64 * 64 + o % 64) :
    first? (UInt8.ofNat k) (UInt8.ofNat l :: UInt8.ofNat m :: UInt8.ofNat o :: rest)
      = some (c, 3) := by
  have h₁ : ¬UInt8.ofNat k < 0x80 := not_lt_of_le (by omega) (Nat.le_trans (by decide) hk)
  have h₂ : ¬UInt8.ofNat k < 0xC2 := not_lt_of_le (by omega) (Nat.le_trans (by decide) hk)
  have h₃ : ¬UInt8.ofNat k < 0xE0 := not_lt_of_le (by omega) (Nat.le_trans (by decide) hk)
  have h₄ : ¬UInt8.ofNat k < 0xF0 := not_lt_of_le (by omega) (Nat.le_trans (by decide) hk)
  have h₅ : UInt8.ofNat k < 0xF5 := (lt_iff (by omega) _).2 hk'
  unfold first?
  rw [if_neg h₁, if_neg h₂, if_neg h₃, if_neg h₄, if_pos h₅]
  dsimp only
  rw [isContinuation_ofNat hl hl', isContinuation_ofNat hm hm', isContinuation_ofNat ho ho',
    if_pos (by rfl)]
  unfold payload
  rw [toNat_ofNat_of_lt (by omega), toNat_ofNat_of_lt (by omega), toNat_ofNat_of_lt (by omega),
    toNat_ofNat_of_lt (by omega), ← hc, scalar?_toNat hlow]
  rfl

/-- A character is read from the bytes it is written with, whatever follows. -/
lemma first?_utf8EncodeChar (c : Char) (rest : List UInt8) : ∃ a tail,
    String.utf8EncodeChar c = a :: tail ∧ first? a (tail ++ rest) = some (c, tail.length) := by
  have hlt : c.toNat < 0x110000 := by
    have hv : c.toNat.isValidChar := c.valid
    unfold Nat.isValidChar at hv
    omega
  have hval : c.val.toNat = c.toNat := rfl
  -- the bytes are remainders of the number, from which it is put together again
  unfold String.utf8EncodeChar
  simp only [hval]
  split
  · exact ⟨_, [], rfl, first?_one _ (by omega) rfl⟩
  split
  · exact ⟨_, [_], rfl, first?_two _ (by omega) (by omega) (by omega) (by omega) (by omega)⟩
  split
  · exact ⟨_, [_, _], rfl, first?_three _ (by omega) (by omega) (by omega) (by omega) (by omega)
      (by omega) (by omega) (by omega)⟩
  · exact ⟨_, [_, _, _], rfl, first?_four _ (by omega) (by omega) (by omega) (by omega) (by omega)
      (by omega) (by omega) (by omega) (by omega) (by omega)⟩

/-! ## Texts -/

lemma symbolsAfter_append (l rest : List UInt8) :
    symbolsAfter l.length (l ++ rest) = symbols rest := by
  induction l with
  | nil => rfl
  | cons a l ih => exact ih

/-- What has been written is read. -/
theorem symbols_encode (text : List Char) (rest : List UInt8) :
    symbols (encode text ++ rest) = text.map some ++ symbols rest := by
  induction text with
  | nil => rfl
  | cons c text ih =>
    obtain ⟨a, tail, hc, hfirst⟩ := first?_utf8EncodeChar c (encode text ++ rest)
    have hcons : encode (c :: text) ++ rest = a :: (tail ++ (encode text ++ rest)) := by
      simp [encode, hc]
    rw [hcons, symbols, symbolsAfter, hfirst]
    simp only [symbolsAfter_append, ih, List.map_cons, List.cons_append]

lemma characters?_map_some (text : List Char) : characters? (text.map some) = some text := by
  induction text with
  | nil => rfl
  | cons c text ih => simp [characters?, ih]

/-- The bytes of a text are read as that text. -/
theorem decode_encode (text : List Char) : decode (encode text) = some text := by
  have hsymbols := symbols_encode text []
  rw [List.append_nil] at hsymbols
  rw [decode, hsymbols, show symbols [] = [] from rfl, List.append_nil, characters?_map_some]

/-! ## Sizes -/

lemma utf8Size_eq (c : Char) : c.utf8Size = if c.toNat ≤ 0x7f then 1
    else if c.toNat ≤ 0x7ff then 2 else if c.toNat ≤ 0xffff then 3 else 4 := by
  have hval : c.val.toNat = c.toNat := rfl
  rw [← String.length_utf8EncodeChar]
  unfold String.utf8EncodeChar
  simp only [hval]
  split
  · rfl
  split
  · rfl
  split <;> rfl

lemma toNat_ofNat {code : Nat} (h : code.isValidChar) : (Char.ofNat code).toNat = code := by
  rw [Char.ofNat, dif_pos h]
  rfl

lemma toNat_of_scalar? {low code : Nat} {c : Char} (h : scalar? low code = some c) :
    low ≤ code ∧ c.toNat = code := by
  unfold scalar? at h
  split at h
  · next hc =>
    rw [← Option.some.inj h]
    exact ⟨hc.1, toNat_ofNat hc.2⟩
  · exact absurd h (by simp)

lemma toNat_of_isContinuation {b : UInt8} (h : isContinuation b = true) :
    128 ≤ b.toNat ∧ b.toNat < 192 := by
  unfold isContinuation at h
  rw [Bool.and_eq_true, decide_eq_true_eq, decide_eq_true_eq, UInt8.le_iff_toNat_le,
    UInt8.lt_iff_toNat_lt] at h
  exact h

/-- The sequence that starts at byte `a`: the number of its character is put together from what its
bytes hold, and is too large for a shorter sequence. -/
inductive Sequence (a : UInt8) (c : Char) : List UInt8 → Nat → Prop
  | one {rest : List UInt8} (ha : a.toNat < 128) (hc : c.toNat = a.toNat) : Sequence a c rest 0
  | two {b : UInt8} {rest : List UInt8} (ha : 194 ≤ a.toNat ∧ a.toNat < 224)
      (hb : 128 ≤ b.toNat ∧ b.toNat < 192) (hc : c.toNat = a.toNat % 32 * 64 + b.toNat % 64) :
      Sequence a c (b :: rest) 1
  | three {b d : UInt8} {rest : List UInt8} (ha : 224 ≤ a.toNat ∧ a.toNat < 240)
      (hb : 128 ≤ b.toNat ∧ b.toNat < 192) (hd : 128 ≤ d.toNat ∧ d.toNat < 192)
      (hlow : 0x800 ≤ c.toNat)
      (hc : c.toNat = a.toNat % 16 * 4096 + b.toNat % 64 * 64 + d.toNat % 64) :
      Sequence a c (b :: d :: rest) 2
  | four {b d e : UInt8} {rest : List UInt8} (ha : 240 ≤ a.toNat ∧ a.toNat < 245)
      (hb : 128 ≤ b.toNat ∧ b.toNat < 192) (hd : 128 ≤ d.toNat ∧ d.toNat < 192)
      (he : 128 ≤ e.toNat ∧ e.toNat < 192) (hlow : 0x10000 ≤ c.toNat)
      (hc : c.toNat = a.toNat % 8 * 262144 + b.toNat % 64 * 4096 + d.toNat % 64 * 64
        + e.toNat % 64) : Sequence a c (b :: d :: e :: rest) 3

lemma sequence_of_first? {a : UInt8} {rest : List UInt8} {c : Char} {n : Nat}
    (h : first? a rest = some (c, n)) : Sequence a c rest n := by
  have ha := a.toNat_lt
  -- the ranges of the first byte, in the order in which they are tried
  unfold first? at h
  simp only [UInt8.lt_iff_toNat_lt] at h
  split at h
  · next hone =>
    change a.toNat < 128 at hone
    obtain ⟨rfl, rfl⟩ := Prod.mk.inj (Option.some.inj h)
    exact .one hone (toNat_ofNat (.inl (by omega)))
  split at h
  · exact absurd h (by simp)
  next hlow =>
  change ¬a.toNat < 194 at hlow
  split at h
  · next htwo =>
    change a.toNat < 224 at htwo
    split at h
    · split at h
      · next hb =>
        obtain ⟨c', hscalar, hpair⟩ := Option.map_eq_some_iff.1 h
        obtain ⟨rfl, rfl⟩ := Prod.mk.inj hpair
        exact .two ⟨by omega, htwo⟩ (toNat_of_isContinuation hb) (toNat_of_scalar? hscalar).2
      · exact absurd h (by simp)
    · exact absurd h (by simp)
  next htwo =>
  change ¬a.toNat < 224 at htwo
  split at h
  · next hthree =>
    change a.toNat < 240 at hthree
    split at h
    · split at h
      · next hbd =>
        rw [Bool.and_eq_true] at hbd
        obtain ⟨c', hscalar, hpair⟩ := Option.map_eq_some_iff.1 h
        obtain ⟨rfl, rfl⟩ := Prod.mk.inj hpair
        obtain ⟨hle, hcode⟩ := toNat_of_scalar? hscalar
        exact .three ⟨by omega, hthree⟩ (toNat_of_isContinuation hbd.1)
          (toNat_of_isContinuation hbd.2) (hcode ▸ hle) hcode
      · exact absurd h (by simp)
    · exact absurd h (by simp)
  next hthree =>
  change ¬a.toNat < 240 at hthree
  split at h
  · next hfour =>
    change a.toNat < 245 at hfour
    split at h
    · split at h
      · next hbde =>
        rw [Bool.and_eq_true, Bool.and_eq_true] at hbde
        obtain ⟨c', hscalar, hpair⟩ := Option.map_eq_some_iff.1 h
        obtain ⟨rfl, rfl⟩ := Prod.mk.inj hpair
        obtain ⟨hle, hcode⟩ := toNat_of_scalar? hscalar
        exact .four ⟨by omega, hfour⟩ (toNat_of_isContinuation hbde.1.1)
          (toNat_of_isContinuation hbde.1.2) (toNat_of_isContinuation hbde.2) (hcode ▸ hle) hcode
      · exact absurd h (by simp)
    · exact absurd h (by simp)
  · exact absurd h (by simp)

/-- A sequence of bytes is as long as its character says, and is all there. -/
lemma size_of_first? {a : UInt8} {rest : List UInt8} {c : Char} {n : Nat}
    (h : first? a rest = some (c, n)) : c.utf8Size = n + 1 ∧ n ≤ rest.length := by
  have hsize := utf8Size_eq c
  cases sequence_of_first? h with
  | one ha hc =>
    rw [if_pos (by omega)] at hsize
    exact ⟨hsize, Nat.zero_le _⟩
  | two ha hb hc =>
    rw [if_neg (by omega), if_pos (by omega)] at hsize
    exact ⟨hsize, by simp⟩
  | three ha hb hd hlow hc =>
    rw [if_neg (by omega), if_neg (by omega), if_pos (by omega)] at hsize
    exact ⟨hsize, by simp⟩
  | four ha hb hd he hlow hc =>
    rw [if_neg (by omega), if_neg (by omega), if_neg (by omega)] at hsize
    exact ⟨hsize, by simp⟩

lemma byteSize_symbolsAfter (bytes : List UInt8) (skip : Nat) :
    Json.byteSize (symbolsAfter skip bytes) = bytes.length - skip := by
  induction bytes generalizing skip with
  | nil => simp [symbolsAfter, Json.byteSize]
  | cons a rest ih =>
    cases skip with
    | succ skip =>
      rw [symbolsAfter, ih, List.length_cons]
      omega
    | zero =>
      unfold symbolsAfter
      cases hfirst : first? a rest with
      | none =>
        have hrest := ih 0
        simp only [Json.byteSize, List.foldr_cons, symbolSize, List.length_cons] at hrest ⊢
        omega
      | some p =>
        obtain ⟨c, n⟩ := p
        obtain ⟨hsize, hle⟩ := size_of_first? hfirst
        have hrest := ih n
        simp only [Json.byteSize, List.foldr_cons, symbolSize, List.length_cons] at hrest ⊢
        omega

/-- Symbols are as many bytes long as what they were read from. -/
theorem byteSize_symbols (bytes : List UInt8) : Json.byteSize (symbols bytes) = bytes.length :=
  byteSize_symbolsAfter bytes 0

lemma length_encode (text : List Char) :
    (encode text).length = Json.byteSize (Json.Input.ofText text) := by
  induction text with
  | nil => rfl
  | cons c text ih =>
    have hcons : encode (c :: text) = String.utf8EncodeChar c ++ encode text := by simp [encode]
    rw [hcons, List.length_append, String.length_utf8EncodeChar, ih]
    rfl

/-! ## Bytes that have been read -/

lemma ofNat_eq {k : Nat} {b : UInt8} (h : k = b.toNat) : UInt8.ofNat k = b := by
  rw [h, UInt8.ofNat_toNat]

/-- The bytes that a character is read from are those it is written with. -/
lemma encode_of_first? {a : UInt8} {rest : List UInt8} {c : Char} {n : Nat}
    (h : first? a rest = some (c, n)) : String.utf8EncodeChar c = a :: rest.take n := by
  have hval : c.val.toNat = c.toNat := rfl
  unfold String.utf8EncodeChar
  simp only [hval]
  -- the bytes are computed back from the code point, by its length
  cases sequence_of_first? h with
  | one ha hc =>
    rw [if_pos (by omega), ofNat_eq hc, List.take_zero]
  | @two b rest ha hb hc =>
    have hfirst : c.toNat / 64 % 32 + 192 = a.toNat := by omega
    have hlast : c.toNat % 64 + 128 = b.toNat := by omega
    rw [if_neg (by omega), if_pos (by omega), ofNat_eq hfirst, ofNat_eq hlast]
    rfl
  | @three b d rest ha hb hd hlow hc =>
    have hfirst : c.toNat / 4096 % 16 + 224 = a.toNat := by omega
    have hsecond : c.toNat / 64 % 64 + 128 = b.toNat := by omega
    have hlast : c.toNat % 64 + 128 = d.toNat := by omega
    rw [if_neg (by omega), if_neg (by omega), if_pos (by omega), ofNat_eq hfirst, ofNat_eq hsecond,
      ofNat_eq hlast]
    rfl
  | @four b d e rest ha hb hd he hlow hc =>
    have hfirst : c.toNat / 262144 % 8 + 240 = a.toNat := by omega
    have hsecond : c.toNat / 4096 % 64 + 128 = b.toNat := by omega
    have hthird : c.toNat / 64 % 64 + 128 = d.toNat := by omega
    have hlast : c.toNat % 64 + 128 = e.toNat := by omega
    rw [if_neg (by omega), if_neg (by omega), if_neg (by omega), ofNat_eq hfirst, ofNat_eq hsecond,
      ofNat_eq hthird, ofNat_eq hlast]
    rfl

lemma encode_of_symbolsAfter {skip : Nat} {bytes : List UInt8} {text : List Char}
    (h : symbolsAfter skip bytes = text.map some) : encode text = bytes.drop skip := by
  -- over the bytes, with those that belong to the symbol before still to be skipped
  induction bytes generalizing skip text with
  | nil =>
    have hnil : text = [] := by simpa [symbolsAfter] using h.symm
    rw [hnil, List.drop_nil]
    rfl
  | cons a rest ih =>
    cases skip with
    | succ skip => exact ih h
    | zero =>
      unfold symbolsAfter at h
      cases text with
      | nil =>
        split at h <;> exact absurd h (by simp)
      | cons c text =>
        have hcons : encode (c :: text) = String.utf8EncodeChar c ++ encode text := by simp [encode]
        split at h
        · next d n hfirst =>
          obtain ⟨hd, hrest⟩ := List.cons.inj h
          rw [Option.some.inj hd] at hfirst
          rw [hcons, encode_of_first? hfirst, ih hrest, List.cons_append, List.take_append_drop,
            List.drop_zero]
        · exact absurd (List.cons.inj h).1 (by simp)

/-- Bytes without a stray one are those that their text is written with. -/
theorem encode_of_symbols {bytes : List UInt8} {text : List Char}
    (h : symbols bytes = text.map some) : encode text = bytes := encode_of_symbolsAfter h

end Utf8
end Switchboard
