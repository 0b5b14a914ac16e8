/-!
# Hexadecimal digits

Digits of both cases are read; which case is written is for the writer to say.
-/

namespace Switchboard.Hex

/-- The value of a hexadecimal digit. -/
def value? (c : Char) : Option Nat :=
  if '0' ≤ c ∧ c ≤ '9' then some (c.toNat - '0'.toNat)
  else if 'a' ≤ c ∧ c ≤ 'f' then some (c.toNat - 'a'.toNat + 10)
  else if 'A' ≤ c ∧ c ≤ 'F' then some (c.toNat - 'A'.toNat + 10)
  else none

/-- Whether a character is a hexadecimal digit. -/
def isDigit (c : Char) : Bool := (value? c).isSome

/-- The number that hexadecimal digits stand for; other characters count as zero. -/
def ofDigits (digits : List Char) : Nat :=
  digits.foldl (fun n c => n * 16 + (value? c).getD 0) 0

/-- The bytes that pairs of hexadecimal digits stand for. -/
def bytes : List Char → List UInt8
  | a :: b :: rest => UInt8.ofNat (ofDigits [a, b]) :: bytes rest
  | _ => []

end Switchboard.Hex
