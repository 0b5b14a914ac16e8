/-!
# UTF-8

Texts travel as bytes. `encode` writes characters as UTF-8 and `symbols` reads bytes back: it
yields one symbol for every well-formed sequence and one for every stray byte, so that a reader
above it can walk over a damaged text and still say where the damage matters.

* `decode` accepts exactly the byte strings without a stray byte.
* ASCII bytes are never swallowed by a damaged sequence in front of them: a stray byte stands
  alone.
-/

namespace Switchboard

/-- One unit of a text read from bytes: a character, or `none` for a byte that belongs to no
well-formed sequence. -/
abbrev Symbol := Option Char

namespace Utf8

/-- The UTF-8 bytes of a list of characters. -/
def encode (text : List Char) : List UInt8 :=
  text.flatMap String.utf8EncodeChar

/-- Whether a byte can only continue a sequence. -/
def isContinuation (b : UInt8) : Bool := 0x80 ≤ b && b < 0xC0

/-- The six payload bits of a continuation byte. -/
def payload (b : UInt8) : Nat := b.toNat % 64

/-- A code point as a character, if it is in the range `lo ≤ · ≤ 0x10FFFF` that its sequence
length may encode and no surrogate. -/
def scalar? (lo code : Nat) : Option Char :=
  if lo ≤ code ∧ code.isValidChar then some (Char.ofNat code) else none

/-- The character that starts at byte `a`, with the number of bytes after `a` it takes. -/
def first? (a : UInt8) (rest : List UInt8) : Option (Char × Nat) :=
  if a < 0x80 then
    some (Char.ofNat a.toNat, 0)
  else if a < 0xC2 then
    none
  else if a < 0xE0 then
    match rest with
    | b :: _ =>
      if isContinuation b then
        (scalar? 0x80 (a.toNat % 32 * 64 + payload b)).map (·, 1)
      else none
    | [] => none
  else if a < 0xF0 then
    match rest with
    | b :: c :: _ =>
      if isContinuation b && isContinuation c then
        (scalar? 0x800 (a.toNat % 16 * 4096 + payload b * 64 + payload c)).map (·, 2)
      else none
    | _ => none
  else if a < 0xF5 then
    match rest with
    | b :: c :: d :: _ =>
      if isContinuation b && isContinuation c && isContinuation d then
        (scalar? 0x10000
          (a.toNat % 8 * 262144 + payload b * 4096 + payload c * 64 + payload d)).map (·, 3)
      else none
    | _ => none
  else
    none

/-- Reads bytes of which the first `skip` belong to a sequence already read. -/
def symbolsAfter : Nat → List UInt8 → List Symbol
  | _, [] => []
  | skip + 1, _ :: rest => symbolsAfter skip rest
  | 0, a :: rest =>
    match first? a rest with
    | some (c, n) => some c :: symbolsAfter n rest
    | none => none :: symbolsAfter 0 rest

/-- The symbols of a byte string. -/
def symbols (bytes : List UInt8) : List Symbol := symbolsAfter 0 bytes

/-- The characters behind symbols, if none of them is a stray byte. -/
def characters? : List Symbol → Option (List Char)
  | [] => some []
  | some c :: rest => (characters? rest).map (c :: ·)
  | none :: _ => none

/-- The characters of a byte string, if all of it is UTF-8. -/
def decode (bytes : List UInt8) : Option (List Char) := characters? (symbols bytes)

/-- How many bytes a symbol was read from. -/
def symbolSize : Symbol → Nat
  | some c => c.utf8Size
  | none => 1

end Utf8
end Switchboard
