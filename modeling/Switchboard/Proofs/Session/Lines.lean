import Mathlib.Data.List.Basic
import Mathlib.Data.List.Induction
import Mathlib.Data.List.TakeWhile
import Switchboard.Proofs.Text.Utf8
import Switchboard.Session.Lines

/-!
# Lines as they travel

No character but a line feed has a byte that ends a line, so that texts without line feeds are cut
from the stream as they were put on it.

* `count_encode` counts an ASCII character in the bytes of a text.
* `trimReturn_encode` drops the carriage return of a line as `Lines.withoutReturn` does with its
  text.
* `split_lines` cuts a whole stream of lines, and `takes_lines` takes its lines one after the other
  while more may be behind them.
-/

namespace Switchboard

/-! ## ASCII among the bytes -/

namespace Utf8

/-- A character is one byte, its own number, or bytes that no ASCII character has. -/
lemma utf8EncodeChar_cases (c : Char) :
    (c.toNat < 128 ∧ String.utf8EncodeChar c = [UInt8.ofNat c.toNat]) ∨
      (128 ≤ c.toNat ∧ ∀ b ∈ String.utf8EncodeChar c, 128 ≤ b.toNat) := by
  have hval : c.val.toNat = c.toNat := rfl
  unfold String.utf8EncodeChar
  simp only [hval]
  split
  · exact .inl ⟨by omega, rfl⟩
  all_goals refine .inr ⟨by omega, ?_⟩
  split
  · simp only [List.forall_mem_cons]
    exact ⟨by rw [toNat_ofNat_of_lt] <;> omega, by rw [toNat_ofNat_of_lt] <;> omega, by simp⟩
  split
  · simp only [List.forall_mem_cons]
    exact ⟨by rw [toNat_ofNat_of_lt] <;> omega, by rw [toNat_ofNat_of_lt] <;> omega,
      by rw [toNat_ofNat_of_lt] <;> omega, by simp⟩
  · simp only [List.forall_mem_cons]
    exact ⟨by rw [toNat_ofNat_of_lt] <;> omega, by rw [toNat_ofNat_of_lt] <;> omega,
      by rw [toNat_ofNat_of_lt] <;> omega, by rw [toNat_ofNat_of_lt] <;> omega, by simp⟩

/-- A byte below 128 occurs in the code of no other character. -/
lemma count_utf8EncodeChar {d : Char} (hd : d.toNat < 128) (c : Char) :
    (String.utf8EncodeChar c).count (UInt8.ofNat d.toNat) = [c].count d := by
  have hbyte : (UInt8.ofNat d.toNat).toNat = d.toNat := toNat_ofNat_of_lt (by omega)
  rw [List.count_singleton]
  obtain ⟨hc, hone⟩ | ⟨hc, hhigh⟩ := utf8EncodeChar_cases c
  · have hiff : UInt8.ofNat c.toNat = UInt8.ofNat d.toNat ↔ c = d := by
      rw [← UInt8.toNat_inj, hbyte, toNat_ofNat_of_lt (by omega), Char.toNat_inj]
    rw [hone, List.count_singleton]
    simp only [beq_iff_eq, hiff]
  · have hne : c ≠ d := fun he => by
      rw [he] at hc
      omega
    rw [List.count_eq_zero.2 fun hmem => ?_, if_neg (by simpa using hne)]
    have hle := hhigh _ hmem
    omega

/-- An ASCII character is its own byte, and no other character has that byte. -/
theorem count_encode {d : Char} (hd : d.toNat < 128) (text : List Char) :
    (encode text).count (UInt8.ofNat d.toNat) = text.count d := by
  induction text with
  | nil => rfl
  | cons c text ih =>
    have hcons : encode (c :: text) = String.utf8EncodeChar c ++ encode text := by simp [encode]
    have hsingle : c :: text = [c] ++ text := rfl
    rw [hcons, List.count_append, count_utf8EncodeChar hd, ih, hsingle, List.count_append]

lemma encode_append (text rest : List Char) :
    encode (text ++ rest) = encode text ++ encode rest := List.flatMap_append

/-- A byte below 128 is in a text when its character is. -/
lemma mem_encode_iff {d : Char} (hd : d.toNat < 128) {text : List Char} :
    UInt8.ofNat d.toNat ∈ encode text ↔ d ∈ text := by
  rw [← List.count_pos_iff, count_encode hd, List.count_pos_iff]

end Utf8

namespace Lines

/-! ## One line -/

lemma lineFeed_mem_encode_iff {text : List Char} :
    lineFeed ∈ Utf8.encode text ↔ '\n' ∈ text := Utf8.mem_encode_iff (d := '\n') (by decide)

/-- A text without a carriage return at its end. -/
def withoutReturn (text : List Char) : List Char :=
  if text.getLast? = some '\r' then text.dropLast else text

lemma withoutReturn_append_return (text : List Char) : withoutReturn (text ++ ['\r']) = text := by
  simp [withoutReturn]

/-- A line without a carriage return at its end loses nothing. -/
lemma withoutReturn_of_ne {text : List Char} (h : text.getLast? ≠ some '\r') :
    withoutReturn text = text := if_neg h

/-- The carriage return is dropped before or after a text becomes bytes. -/
theorem trimReturn_encode (text : List Char) :
    trimReturn (Utf8.encode text) = Utf8.encode (withoutReturn text) := by
  induction text using List.reverseRecOn with
  | nil => rfl
  | append_singleton init c =>
    have hbytes : Utf8.encode (init ++ [c]) = Utf8.encode init ++ String.utf8EncodeChar c := by
      simp [Utf8.encode]
    by_cases hc : c = '\r'
    · subst hc
      have hreturn : String.utf8EncodeChar '\r' = [carriageReturn] := by decide
      rw [withoutReturn_append_return, hbytes, hreturn]
      simp [trimReturn]
    · -- the last byte belongs to the last character
      have hlast : (Utf8.encode (init ++ [c])).getLast? ≠ some carriageReturn := by
        intro hget
        have hne := String.utf8EncodeChar_ne_nil (c := c)
        rw [hbytes, List.getLast?_append_of_ne_nil _ hne] at hget
        have hcount := Utf8.count_utf8EncodeChar (d := '\r') (by decide) c
        rw [List.count_singleton, if_neg (by simpa using hc), List.count_eq_zero] at hcount
        exact hcount (List.mem_of_getLast? hget)
      rw [trimReturn, if_neg hlast, withoutReturn_of_ne (by simpa using hc)]

lemma event_encode (text : List Char) : event (Utf8.encode text) = .line text := by
  rw [event, Utf8.decode_encode]
  rfl

/-- A line is cut off at its line feed. -/
lemma cut?_append {line : List UInt8} (h : lineFeed ∉ line) (rest : List UInt8) :
    cut? (line ++ lineFeed :: rest) = some (line, rest) := by
  have hline : ∀ b ∈ line, decide (b ≠ lineFeed) = true := fun b hb =>
    decide_eq_true fun he => h (he ▸ hb)
  rw [cut?, List.dropWhile_append_of_pos hline, List.takeWhile_append_of_pos hline]
  simp

/-! ## A stream of lines -/

/-- The bytes of texts as lines. -/
def stream (texts : List (List Char)) : List UInt8 :=
  texts.flatMap fun text => Utf8.encode (text ++ ['\n'])

lemma stream_cons (text : List Char) (texts : List (List Char)) :
    stream (text :: texts) = Utf8.encode text ++ lineFeed :: stream texts := by
  have hline : Utf8.encode (text ++ ['\n']) = Utf8.encode text ++ [lineFeed] :=
    Utf8.encode_append text ['\n']
  rw [stream, List.flatMap_cons, hline, List.append_assoc]
  rfl

/-- The first line of a stream is cut off at its line feed. -/
lemma cut?_stream_cons {text : List Char} (h : '\n' ∉ text) (texts : List (List Char))
    (rest : List UInt8) :
    cut? (stream (text :: texts) ++ rest) = some (Utf8.encode text, stream texts ++ rest) := by
  rw [stream_cons, List.append_assoc, List.cons_append]
  exact cut?_append (mt lineFeed_mem_encode_iff.1 h) _

/-- Texts without line feeds are as many lines as there are line feeds among the bytes. -/
theorem count_stream {texts : List (List Char)} (h : ∀ text ∈ texts, '\n' ∉ text) :
    (stream texts).count lineFeed = texts.length := by
  induction texts with
  | nil => rfl
  | cons text texts ih =>
    rw [List.forall_mem_cons] at h
    have hnone := List.count_eq_zero.2 (mt lineFeed_mem_encode_iff.1 h.1)
    rw [stream_cons, List.count_append, hnone, List.count_cons_self, ih h.2, Nat.zero_add,
      List.length_cons]

lemma split_nil : split [] = [] := by
  rw [split]
  rfl

/-- A stream is split into the lines that it was made of. -/
theorem split_lines {texts : List (List Char)} (h : ∀ text ∈ texts, '\n' ∉ text) :
    split (stream texts) = texts.map fun text => Utf8.encode (withoutReturn text) := by
  induction texts with
  | nil => exact split_nil
  | cons text texts ih =>
    rw [List.forall_mem_cons] at h
    have hcut := cut?_stream_cons h.1 texts []
    rw [List.append_nil, List.append_nil] at hcut
    rw [split]
    split
    · next line rest hsome =>
      obtain ⟨rfl, rfl⟩ := Prod.mk.inj (Option.some.inj (hcut.symm.trans hsome))
      rw [trimReturn_encode, ih h.2, List.map_cons]
    · next hnone => exact absurd (hcut.symm.trans hnone) (by simp)

/-- The frames of a stream are those that its lines hold. -/
theorem framesOf_lines {texts : List (List Char)} (h : ∀ text ∈ texts, '\n' ∉ text) :
    framesOf (stream texts) = texts.filterMap fun text => frameOf? (withoutReturn text) := by
  have hdecode : (split (stream texts)).map Utf8.decode
      = texts.map fun text => some (withoutReturn text) := by
    rw [split_lines h, List.map_map]
    exact List.map_congr_left fun text _ => Utf8.decode_encode _
  have htake : (texts.map fun text => some (withoutReturn text)).takeWhile Option.isSome
      = texts.map fun text => some (withoutReturn text) := by
    rw [List.takeWhile_eq_self_iff]
    simp
  rw [framesOf]
  simp only [hdecode, htake, List.filterMap_map]
  rfl

end Lines

/-! ## Lines that are taken from what has arrived -/

namespace Inbound

/-- What is delivered one after the other, and what is left then. -/
inductive Takes : Inbound → List LineEvent → Inbound → Prop
  | nil (s : Inbound) : Takes s [] s
  | cons {s t u : Inbound} {event : LineEvent} {events : List LineEvent}
      (h : s.next? = some (event, t)) (hrest : Takes t events u) : Takes s (event :: events) u

/-- The lines of a stream are delivered in order, whatever is behind them. -/
theorem takes_lines {texts : List (List Char)} (h : ∀ text ∈ texts, '\n' ∉ text)
    (rest : List UInt8) (ended : Bool) :
    Takes ⟨Lines.stream texts ++ rest, ended⟩
      (texts.map fun text => .line (Lines.withoutReturn text)) ⟨rest, ended⟩ := by
  induction texts with
  | nil => exact .nil _
  | cons text texts ih =>
    rw [List.forall_mem_cons] at h
    refine .cons ?_ (ih h.2)
    rw [next?, Lines.cut?_stream_cons h.1]
    simp only [Lines.trimReturn_encode, Lines.event_encode]

end Inbound
end Switchboard
