import Switchboard.Text.Hex
import Switchboard.Toml.Value

/-!
# TOML numbers, truth values, dates and times

All of these are single words: a word ends at a blank, a line end, a comma, a bracket or a comment,
so it is cut off first and recognised as a whole. The one exception is a date followed by a time,
which a single space may part.

* Whole numbers are decimal, hexadecimal, octal or binary and must fit 64 bits with a sign.
* In a run of digits single underscores may part the digits.
* Floats are rounded to the nearest one; a positive one that is too large is refused.
-/

namespace Switchboard.Toml

/-- Whether a character belongs to a word. -/
def isWordChar (c : Char) : Bool :=
  c.isAlphanum || c == '+' || c == '-' || c == '_' || c == '.' || c == ':'

/-! ## Digits -/

/-- The digits behind a digit, without the single underscores that part them. -/
def moreDigits (isDigit : Char → Bool) : List Char → Option (List Char)
  | [] => some []
  | [c] => if isDigit c then some [c] else none
  | c :: d :: rest =>
    if isDigit c then (moreDigits isDigit (d :: rest)).map (c :: ·)
    else if c = '_' ∧ isDigit d then (moreDigits isDigit rest).map (d :: ·)
    else none

/-- A run of at least one digit, without the underscores. -/
def digits (isDigit : Char → Bool) : List Char → Option (List Char)
  | [] => none
  | c :: rest => if isDigit c then (moreDigits isDigit rest).map (c :: ·) else none

/-- Decimal digits without a needless zero in front. -/
def wholeDigits (s : List Char) : Option (List Char) :=
  match digits Char.isDigit s with
  | some ('0' :: _ :: _) => none
  | ds => ds

/-- Takes a sign off, and tells whether it is a minus. -/
def sign : List Char → Bool × List Char
  | '+' :: rest => (false, rest)
  | '-' :: rest => (true, rest)
  | rest => (false, rest)

/-! ## Whole numbers -/

/-- The least whole number. -/
def minInt : Int := -9223372036854775808

/-- The greatest whole number. -/
def maxInt : Int := 9223372036854775807

/-- A number if it fits. -/
def fitting (n : Int) : Option Int := if minInt ≤ n ∧ n ≤ maxInt then some n else none

/-- Whether a character is an octal digit. -/
def isOctal (c : Char) : Bool := '0' ≤ c && c ≤ '7'

/-- Whether a character is a binary digit. -/
def isBinary (c : Char) : Bool := c == '0' || c == '1'

/-- A word as a whole number. -/
def int? (word : List Char) : Option Int :=
  match word with
  | '0' :: 'x' :: rest => do fitting (Hex.ofDigits (← digits Hex.isDigit rest))
  | '0' :: 'o' :: rest => do fitting (Nat.ofDigitChars 8 (← digits isOctal rest) 0)
  | '0' :: 'b' :: rest => do fitting (Nat.ofDigitChars 2 (← digits isBinary rest) 0)
  | _ => do
    let (negative, rest) := sign word
    let n := Nat.ofDigitChars 10 (← wholeDigits rest) 0
    fitting (if negative then -n else n)

/-! ## Floats -/

/-- The power of ten behind an `e`. -/
def exponent? (s : List Char) : Option Int := do
  let (negative, rest) := sign s
  let n := Nat.ofDigitChars 10 (← digits Char.isDigit rest) 0
  return if negative then -n else n

/-- Whether a character stands before an exponent. -/
def isExponentMark (c : Char) : Bool := c == 'e' || c == 'E'

/-- The digits of a fraction and the exponent, of which at least one is there. -/
def fraction? (s : List Char) : Option (List Char × Int) :=
  match s with
  | '.' :: rest => do
    let fraction ← digits Char.isDigit (rest.takeWhile (!isExponentMark ·))
    match rest.dropWhile (!isExponentMark ·) with
    | [] => return (fraction, 0)
    | _ :: rest => return (fraction, ← exponent? rest)
  | c :: rest => if isExponentMark c then do return ([], ← exponent? rest) else none
  | [] => none

/-- A word as a float. -/
def float? (word : List Char) : Option Binary64 :=
  let (negative, rest) := sign word
  if rest = "inf".toList then some (.infinite negative)
  else if rest = "nan".toList then some .nan
  else do
    let isWhole (c : Char) : Bool := c.isDigit || c == '_'
    let whole ← wholeDigits (rest.takeWhile isWhole)
    let (fraction, e) ← fraction? (rest.dropWhile isWhole)
    match Binary64.ofDecimal (whole ++ fraction) (e - fraction.length) with
    | some x => return .ofMagnitude negative x
    | none => if negative then return .infinite true else none

/-! ## Dates and times -/

/-- A number of exactly so many digits. -/
def fixed? (size : Nat) (s : List Char) : Option Nat :=
  if s.length = size ∧ s.all Char.isDigit then some (Nat.ofDigitChars 10 s 0) else none

/-- The number of days of a month. -/
def daysIn (year month : Nat) : Nat :=
  if month = 2 then
    if year % 4 = 0 ∧ (year % 100 ≠ 0 ∨ year % 400 = 0) then 29 else 28
  else if month = 4 ∨ month = 6 ∨ month = 9 ∨ month = 11 then 30
  else 31

/-- Whether a text is a date. -/
def isDate (s : List Char) : Bool :=
  match fixed? 4 (s.take 4), s.drop 4 with
  | some year, ['-', m, m', '-', d, d'] =>
    match fixed? 2 [m, m'], fixed? 2 [d, d'] with
    | some month, some day =>
      1 ≤ month && month ≤ 12 && 1 ≤ day && day ≤ daysIn year month
    | _, _ => false
  | _, _ => false

/-- Whether a text is empty or a fraction of a second. -/
def isSecondFraction : List Char → Bool
  | [] => true
  | '.' :: rest => rest ≠ [] && rest.all Char.isDigit
  | _ => false

/-- Whether a text is an hour and a minute. -/
def isClock : List Char → Bool
  | [h, h', ':', m, m'] =>
    match fixed? 2 [h, h'], fixed? 2 [m, m'] with
    | some hour, some minute => hour < 24 && minute < 60
    | _, _ => false
  | _ => false

/-- Whether a text is a time of day. Its second may be a leap second. -/
def isTime (s : List Char) : Bool :=
  isClock (s.take 5) &&
    match s.drop 5 with
    | ':' :: c :: c' :: rest =>
      ((fixed? 2 [c, c']).any (· ≤ 60)) && isSecondFraction rest
    | _ => false

/-- Whether a character begins an offset. -/
def isOffsetMark (c : Char) : Bool := c == 'Z' || c == 'z' || c == '+' || c == '-'

/-- Whether a text is empty or the offset of a time zone. -/
def isOffset : List Char → Bool
  | [] => true
  | [c] => c == 'Z' || c == 'z'
  | c :: rest => (c == '+' || c == '-') && isClock rest

/-- Whether a text is a time of day with or without an offset. -/
def isZonedTime (s : List Char) : Bool :=
  isTime (s.takeWhile (!isOffsetMark ·)) && isOffset (s.dropWhile (!isOffsetMark ·))

/-- Whether a word is a date, a time, or a date and a time with a `T` between them. -/
def isMoment (word : List Char) : Bool :=
  isDate word || isTime word ||
    isDate (word.take 10) &&
      match word.drop 10 with
      | c :: rest => (c == 'T' || c == 't') && isZonedTime rest
      | [] => false

/-! ## Words -/

/-- The value of a word. -/
def ofWord? (word : List Char) : Option Toml :=
  if word = "true".toList then some (.bool true)
  else if word = "false".toList then some (.bool false)
  else if isMoment word then some (.moment (String.ofList word))
  else
    match int? word with
    | some n => some (.int n)
    | none => (float? word).map .float

/-- Reads a word, and behind a date the time that a single space parts from it. -/
def word (s : List Char) : Option (Toml × List Char) := do
  let first := s.takeWhile isWordChar
  let rest := s.dropWhile isWordChar
  let time := (rest.drop 1).takeWhile isWordChar
  if isDate first ∧ rest.head? = some ' ' ∧ isZonedTime time then
    return (.moment (String.ofList (first ++ ' ' :: time)), (rest.drop 1).dropWhile isWordChar)
  else return (← ofWord? first, rest)

end Switchboard.Toml
