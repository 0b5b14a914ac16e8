import Switchboard.Json.Error
import Switchboard.Text.Hex
import Switchboard.Text.Utf8

/-!
# Scanning JSON tokens

The input is a list of symbols, so that a byte that is no UTF-8 is met where it stands: between
tokens it is no token, inside a string it makes the string invalid once its end is reached.

* `string` reads what stands after an opening quote, `number` what stands after a sign.
* `glimpse` reads the next value as far as it needs no other value: a scalar is read completely, an
  array or object is only announced.
-/

namespace Switchboard.Json

/-- A text that is being read. -/
abbrev Input := List Symbol

/-- A text without stray bytes as input. -/
def Input.ofText (text : List Char) : Input := text.map some

/-! ## Blanks and literals -/

/-- The characters that may stand between tokens. -/
def isBlank (s : Symbol) : Bool :=
  s == some ' ' || s == some '\t' || s == some '\n' || s == some '\r'

/-- The input from its next token on. -/
def skipBlank (input : Input) : Input := input.dropWhile isBlank

/-- Reads the rest of a literal such as `null`. -/
def literal : List Char → Input → Except Defect Input
  | [], input => .ok input
  | _ :: _, [] => .error .endInValue
  | c :: cs, s :: input => if s = some c then literal cs input else .error .expectedIdent

/-! ## Strings -/

/-- The value of a hexadecimal digit. -/
def hexValue? (s : Symbol) : Option Nat := s.bind Hex.value?

/-- The number of bytes an input was read from. -/
def byteSize (input : Input) : Nat := input.foldr (fun s n => Utf8.symbolSize s + n) 0

/-- The value of the four hexadecimal digits in front. A text of fewer than four bytes has ended
too early; any other offence is a wrong escape. -/
def hex4 : Input → Except Defect Nat
  | a :: b :: c :: d :: _ =>
    match hexValue? a, hexValue? b, hexValue? c, hexValue? d with
    | some a, some b, some c, some d => .ok (((a * 16 + b) * 16 + c) * 16 + d)
    | _, _, _, _ => .error .invalidEscape
  | short => if byteSize short < 4 then .error .endInString else .error .invalidEscape

/-- Whether a code unit is the first half of a pair. -/
def isHighSurrogate (n : Nat) : Bool := 0xD800 ≤ n && n ≤ 0xDBFF

/-- Whether a code unit is the second half of a pair. -/
def isLowSurrogate (n : Nat) : Bool := 0xDC00 ≤ n && n ≤ 0xDFFF

/-- The character that two halves stand for. -/
def joinSurrogates (high low : Nat) : Char :=
  Char.ofNat (0x10000 + (high - 0xD800) * 0x400 + (low - 0xDC00))

/-- The character of a `\u` escape of which the input has the digits, with the number of symbols
after the `u` that it takes. -/
def unicodeEscape (input : Input) : Except Defect (Char × Nat) := do
  let high ← hex4 input
  if isLowSurrogate high then .error .loneSurrogate
  else if isHighSurrogate high then
    match input.drop 4 with
    | [] => .error .endInString
    | some '\\' :: [] => .error .endInString
    | some '\\' :: some 'u' :: rest =>
      let low ← hex4 rest
      if isLowSurrogate low then .ok (joinSurrogates high low, 10) else .error .loneSurrogate
    | _ => .error .unexpectedEndOfHexEscape
  else .ok (Char.ofNat high, 4)

/-- The character that a one-letter escape stands for. -/
def shortEscape? : Char → Option Char
  | '"' => some '"'
  | '\\' => some '\\'
  | '/' => some '/'
  | 'b' => some '\x08'
  | 'f' => some '\x0c'
  | 'n' => some '\n'
  | 'r' => some '\r'
  | 't' => some '\t'
  | _ => none

/-- The character of the escape behind a backslash, with the number of symbols it takes. -/
def escape : Input → Except Defect (Char × Nat)
  | [] => .error .endInString
  | some 'u' :: rest => (unicodeEscape rest).map fun (c, n) => (c, n + 1)
  | some c :: _ =>
    match shortEscape? c with
    | some c => .ok (c, 1)
    | none => .error .invalidEscape
  | none :: _ => .error .invalidEscape

/-- Whether a character may not stand unescaped in a string. -/
def isControl : Symbol → Bool
  | some c => c.toNat < 0x20
  | none => false

/-- Reads a string up to its closing quote. The first `skip` symbols belong to an escape already
read; `read` holds the symbols so far, the last one in front. -/
def stringBody : (skip : Nat) → (read : List Symbol) → Input →
    Except Defect (List Symbol × Input)
  | _, _, [] => .error .endInString
  | skip + 1, read, _ :: rest => stringBody skip read rest
  | 0, read, s :: rest =>
    if s = some '"' then .ok (read.reverse, rest)
    else if s = some '\\' then
      match escape rest with
      | .ok (c, n) => stringBody n (some c :: read) rest
      | .error e => .error e
    else if isControl s then .error .controlCharacter
    else stringBody 0 (s :: read) rest

/-- The string behind an opening quote. -/
def string (input : Input) : Except Defect (String × Input) := do
  let (symbols, rest) ← stringBody 0 [] input
  match Utf8.characters? symbols with
  | some cs => .ok (String.ofList cs, rest)
  | none => .error .invalidCodePoint

/-! ## Numbers

A number is read into a significand below `2^64` and a power of ten. Digits that no longer fit
only move the power of ten. The float is the significand times a power of ten, each rounded on its
own, so it may lie a unit beside the nearest one.
-/

/-- Whether a symbol is a decimal digit. -/
def isDigit : Symbol → Bool
  | some c => c.isDigit
  | none => false

/-- The value of a decimal digit. -/
def digitValue (c : Char) : Nat := c.toNat - '0'.toNat

/-- The digits in front of the input. -/
def digitRun (input : Input) : List Char := (input.takeWhile isDigit).filterMap id

/-- The input behind its digits. -/
def afterDigits (input : Input) : Input := input.dropWhile isDigit

/-- The greatest significand. -/
def significandLimit : Nat := 18446744073709551615

/-- Appends digits to a significand while they fit, and tells which do not. -/
def accumulate (n : Nat) : List Char → Nat × List Char
  | [] => (n, [])
  | d :: ds =>
    let next := n * 10 + digitValue d
    if significandLimit < next then (n, d :: ds) else accumulate next ds

/-- A power of ten as a float. -/
def tenPower (n : Nat) : Binary64.Magnitude :=
  (Binary64.ofRatio (Nat.pow 10 n) 1).getD ⟨0, 0⟩

/-- The greatest power of ten that is a float. -/
def maxTenPower : Nat := 308

/-- `x / 10^n`, in steps of the greatest power of ten, until nothing is left to divide. -/
def shrink : Nat → Binary64.Magnitude → Nat → Binary64.Magnitude
  | 0, x, _ => x
  | steps + 1, x, n =>
    if n ≤ maxTenPower then (x.div (tenPower n)).getD x
    else if x.mantissa = 0 then x
    else shrink steps ((x.div (tenPower maxTenPower)).getD x) (n - maxTenPower)

/-- `significand · 10^exponent` as a float. -/
def scaleTen (significand : Nat) (exponent : Int) : Except Defect Binary64.Magnitude :=
  let x := (Binary64.ofRatio significand 1).getD ⟨0, 0⟩
  match exponent with
  | .ofNat n =>
    if n ≤ maxTenPower then
      match x.mul (tenPower n) with
      | some y => .ok y
      | none => .error .numberOutOfRange
    else if x.mantissa = 0 then .ok x
    else .error .numberOutOfRange
  | .negSucc n => .ok (shrink (n + 1) x (n + 1))

/-- The greatest power of ten that a text may name. -/
def exponentLimit : Nat := 2147483647

/-- A significand with its power of ten as a number. -/
def floatNumber (negative : Bool) (significand : Nat) (exponent : Int) : Except Defect Number :=
  (scaleTen significand exponent).map fun x => .float (Binary64.ofMagnitude negative x)

/-- Reads the exponent behind an `e`. -/
def exponentPart (negative : Bool) (significand : Nat) (start : Int) (input : Input) :
    Except Defect (Number × Input) :=
  let (down, unsigned) := match input with
    | some '+' :: rest => (false, rest)
    | some '-' :: rest => (true, rest)
    | rest => (false, rest)
  match unsigned with
  | [] => .error .endInValue
  | s :: _ =>
    if isDigit s then
      let n := Nat.ofDigitChars 10 (digitRun unsigned) 0
      let rest := afterDigits unsigned
      if exponentLimit < n then
        if significand ≠ 0 ∧ !down then .error .numberOutOfRange
        else .ok (.float (Binary64.zero negative), rest)
      else do
        let x ← floatNumber negative significand (if down then start - n else start + n)
        .ok (x, rest)
    else .error .invalidNumber

/-- Reads the digits behind a point. -/
def fractionPart (negative : Bool) (significand : Nat) (start : Int) (input : Input) :
    Except Defect (Number × Input) :=
  let digits := digitRun input
  let rest := afterDigits input
  if digits = [] then
    if rest = [] then .error .endInValue else .error .invalidNumber
  else
    let (n, left) := accumulate significand digits
    let exponent := start - (digits.length - left.length : Nat)
    match rest with
    | some 'e' :: rest => exponentPart negative n exponent rest
    | some 'E' :: rest => exponentPart negative n exponent rest
    | rest => do
      let x ← floatNumber negative n exponent
      .ok (x, rest)

/-- A whole number as it is kept: exactly if 64 bits hold it. The zero with a minus sign and what
does not fit are floats. -/
def wholeNumber (negative : Bool) (n : Nat) : Number :=
  if !negative then .int n
  else if 0 < n ∧ n ≤ 9223372036854775808 then .int (-n)
  else .float (Binary64.ofMagnitude true ((Binary64.ofRatio n 1).getD ⟨0, 0⟩))

/-- Reads what follows the whole part, of which `dropped` digits did not fit. -/
def afterWhole (negative : Bool) (n dropped : Nat) (input : Input) :
    Except Defect (Number × Input) :=
  match input with
  | some '.' :: rest => fractionPart negative n dropped rest
  | some 'e' :: rest => exponentPart negative n dropped rest
  | some 'E' :: rest => exponentPart negative n dropped rest
  | rest =>
    if dropped = 0 then .ok (wholeNumber negative n, rest)
    else do
      let x ← floatNumber negative n dropped
      .ok (x, rest)

/-- The number behind a sign. -/
def number (negative : Bool) : Input → Except Defect (Number × Input)
  | [] => .error .endInValue
  | some '0' :: rest =>
    match rest with
    | s :: _ => if isDigit s then .error .invalidNumber else afterWhole negative 0 0 rest
    | [] => afterWhole negative 0 0 []
  | s :: rest =>
    if isDigit s then
      let (n, left) := accumulate 0 (digitRun (s :: rest))
      afterWhole negative n left.length (afterDigits (s :: rest))
    else .error .invalidNumber

/-! ## Values at a glance -/

/-- A number as something found. -/
def Number.found : Number → Found
  | .int n => .int n
  | .float x => .float x

/-- The next value: a scalar is read completely, of an array or object the input keeps the opening
bracket. -/
def glimpse (input : Input) : Except Defect (Found × Input) :=
  match skipBlank input with
  | [] => .error .endInValue
  | some 'n' :: rest => (literal ['u', 'l', 'l'] rest).map (.null, ·)
  | some 't' :: rest => (literal ['r', 'u', 'e'] rest).map (.bool true, ·)
  | some 'f' :: rest => (literal ['a', 'l', 's', 'e'] rest).map (.bool false, ·)
  | some '"' :: rest => (string rest).map fun (s, rest) => (.str s, rest)
  | some '-' :: rest => (number true rest).map fun (n, rest) => (n.found, rest)
  | some '[' :: rest => .ok (.sequence, some '[' :: rest)
  | some '\x7b' :: rest => .ok (.map, some '\x7b' :: rest)
  | s :: rest =>
    if isDigit s then (number false (s :: rest)).map fun (n, rest) => (n.found, rest)
    else .error .expectedValue

end Switchboard.Json
