import Switchboard.Json.Basic
import Switchboard.Number.Shortest

/-!
# Compact JSON texts

Values are written without any blank. A string escapes only the quote, the backslash and the
control characters; a float is written with the fewest digits that read back, positionally while
its first digit stands between the fifth place after the point and the sixteenth before it.
-/

namespace Switchboard.Json

/-! ## Strings -/

/-- A hexadecimal digit, lower case. -/
def hexDigit (n : Nat) : Char := Nat.digitChar n

/-- One character as it stands in a string. -/
def writeChar (c : Char) : List Char :=
  if c = '"' then ['\\', '"']
  else if c = '\\' then ['\\', '\\']
  else if c = '\n' then ['\\', 'n']
  else if c = '\r' then ['\\', 'r']
  else if c = '\t' then ['\\', 't']
  else if c = '\x08' then ['\\', 'b']
  else if c = '\x0c' then ['\\', 'f']
  else if c.toNat < 0x20 then
    ['\\', 'u', '0', '0', hexDigit (c.toNat / 16), hexDigit (c.toNat % 16)]
  else [c]

/-- A string with its quotes. -/
def writeString (s : String) : List Char :=
  '"' :: (s.toList.flatMap writeChar ++ ['"'])

/-! ## Numbers -/

/-- Whether a decimal with its point at `point` is written positionally. -/
def isPositional (point : Int) : Bool := -5 < point && point ≤ 16

/-- A magnitude: the shortest digits that read back. -/
def writeMagnitude (x : Binary64.Magnitude) : List Char :=
  let d := Shortest.ofMagnitude x
  if isPositional d.point then d.plain else d.scientific

/-- A float. The formats that carry no finite number have no JSON text and become `null`. -/
def writeFloat : Binary64 → List Char
  | .finite negative m k =>
    (if negative then ['-'] else []) ++ writeMagnitude ⟨m, k⟩
  | .infinite _ | .nan => "null".toList

/-- A whole number in base ten. -/
def writeInt : Int → List Char
  | .ofNat n => Nat.toDigits 10 n
  | .negSucc n => '-' :: Nat.toDigits 10 (n + 1)

/-- A number. -/
def writeNumber : Number → List Char
  | .int n => writeInt n
  | .float x => writeFloat x

/-! ## Values -/

/-- Texts with commas between them. -/
def commaSeparated : List (List Char) → List Char
  | [] => []
  | [x] => x
  | x :: y :: rest => x ++ ',' :: commaSeparated (y :: rest)

mutual

/-- A value as compact text. -/
def write : Json → List Char
  | .null => "null".toList
  | .bool true => "true".toList
  | .bool false => "false".toList
  | .num n => writeNumber n
  | .str s => writeString s
  | .arr items => '[' :: (commaSeparated (writeItems items) ++ [']'])
  | .obj members => '\x7b' :: (commaSeparated (writeMembers members) ++ ['\x7d'])

/-- The texts of the items of an array. -/
def writeItems : List Json → List (List Char)
  | [] => []
  | v :: rest => write v :: writeItems rest

/-- The texts of the members of an object. -/
def writeMembers : List Member → List (List Char)
  | [] => []
  | (k, v) :: rest => (writeString k ++ ':' :: write v) :: writeMembers rest

end

/-- A value as a string. -/
def render (v : Json) : String := String.ofList v.write

end Switchboard.Json
