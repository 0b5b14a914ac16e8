/-!
# Internet addresses

Addresses of versions 4 and 6 with their texts. Reading works on a list of characters and answers
what was read with what is left, so that an address can stand inside a longer text.

* Version 4 is four decimal numbers without leading zeros.
* Version 6 is eight hexadecimal groups, of which one run may be left out as `::` and the last two
  may be written as version 4. Written, the first longest run of at least two zero groups is left
  out, and an embedded version 4 address is shown as such.
-/

namespace Switchboard

/-- An address of version 4. -/
structure Ipv4 where
  a : UInt8
  b : UInt8
  c : UInt8
  d : UInt8
deriving DecidableEq, Repr, Inhabited

/-- An address of version 6: its eight groups of sixteen bits. -/
structure Ipv6 where
  groups : Vector UInt16 8
deriving DecidableEq, Repr

/-- An address. -/
inductive Ip
  | v4 (ip : Ipv4)
  | v6 (ip : Ipv6)
deriving DecidableEq, Repr

/-! ## Numbers in addresses -/

namespace Ip

/-- The value of a hexadecimal digit. -/
def hexValue (c : Char) : Nat :=
  if c.isDigit then c.toNat - '0'.toNat
  else if 'a' ≤ c ∧ c ≤ 'f' then c.toNat - 'a'.toNat + 10
  else c.toNat - 'A'.toNat + 10

/-- Whether a character is a hexadecimal digit. -/
def isHexDigit (c : Char) : Bool :=
  c.isDigit || ('a' ≤ c && c ≤ 'f') || ('A' ≤ c && c ≤ 'F')

/-- A decimal number of at most three digits below 256, without leading zeros. -/
def readOctet (s : List Char) : Option (UInt8 × List Char) :=
  let digits := s.takeWhile Char.isDigit
  let n := Nat.ofDigitChars 10 digits 0
  if digits = [] ∨ 3 < digits.length ∨ (digits.head? = some '0' ∧ 1 < digits.length) ∨ 256 ≤ n then
    none
  else some (UInt8.ofNat n, s.dropWhile Char.isDigit)

/-- A hexadecimal number of at most four digits. -/
def readGroup (s : List Char) : Option (UInt16 × List Char) :=
  let digits := s.takeWhile isHexDigit
  if digits = [] ∨ 4 < digits.length then none
  else
    some (UInt16.ofNat (digits.foldl (fun n c => n * 16 + hexValue c) 0), s.dropWhile isHexDigit)

/-- The given character in front. -/
def readChar (c : Char) : List Char → Option (List Char)
  | [] => none
  | x :: s => if x = c then some s else none

end Ip

/-! ## Version 4 -/

namespace Ipv4

/-- Reads an address. -/
def read (s : List Char) : Option (Ipv4 × List Char) := do
  let (a, s) ← Ip.readOctet s
  let s ← Ip.readChar '.' s
  let (b, s) ← Ip.readOctet s
  let s ← Ip.readChar '.' s
  let (c, s) ← Ip.readOctet s
  let s ← Ip.readChar '.' s
  let (d, s) ← Ip.readOctet s
  some (⟨a, b, c, d⟩, s)

/-- The address that a whole text stands for. -/
def parse? (text : String) : Option Ipv4 :=
  match read text.toList with
  | some (ip, []) => some ip
  | _ => none

/-- An address in dotted decimal. -/
def write (ip : Ipv4) : List Char :=
  Nat.toDigits 10 ip.a.toNat ++ '.' :: (Nat.toDigits 10 ip.b.toNat ++ '.' ::
    (Nat.toDigits 10 ip.c.toNat ++ '.' :: Nat.toDigits 10 ip.d.toNat))

/-- An address as a string. -/
def render (ip : Ipv4) : String := String.ofList ip.write

/-- The address as a number of 32 bits. -/
def toNat (ip : Ipv4) : Nat :=
  ((ip.a.toNat * 256 + ip.b.toNat) * 256 + ip.c.toNat) * 256 + ip.d.toNat

/-- Whether the address names a group of receivers. -/
def isMulticast (ip : Ipv4) : Bool := 224 ≤ ip.a && ip.a ≤ 239

/-- The two groups of sixteen bits that an address fills. -/
def toGroups (ip : Ipv4) : List UInt16 :=
  [ip.a.toUInt16 * 256 + ip.b.toUInt16, ip.c.toUInt16 * 256 + ip.d.toUInt16]

end Ipv4

/-! ## Version 6 -/

namespace Ipv6

/-- Skips the separator in front of every part but the first. -/
def separated (first : Bool) (s : List Char) : Option (List Char) :=
  if first then some s else Ip.readChar ':' s

/-- Reads as many groups as there are, at most `slots`; the last two may be written as version 4,
which the second component tells. -/
def readGroups : (slots : Nat) → (first : Bool) → List Char → List UInt16 × Bool × List Char
  | 0, _, s => ([], false, s)
  | slots + 1, first, s =>
    match (if slots = 0 then none else (separated first s).bind Ipv4.read) with
    | some (ip, rest) => (ip.toGroups, true, rest)
    | none =>
      match (separated first s).bind Ip.readGroup with
      | some (g, rest) =>
        let (groups, embedded, rest) := readGroups slots false rest
        (g :: groups, embedded, rest)
      | none => ([], false, s)

/-- Eight groups from a head and a tail with zeros between them. -/
def ofEnds (head tail : List UInt16) : Ipv6 :=
  let groups := head ++ List.replicate (8 - head.length - tail.length) 0 ++ tail
  ⟨Vector.ofFn fun i => groups.getD i.val 0⟩

/-- Reads an address. -/
def read (s : List Char) : Option (Ipv6 × List Char) :=
  let (head, embedded, rest) := readGroups 8 true s
  if head.length = 8 then some (ofEnds head [], rest)
  else if embedded then none
  else do
    let rest ← Ip.readChar ':' rest
    let rest ← Ip.readChar ':' rest
    let (tail, _, rest) := readGroups (7 - head.length) true rest
    some (ofEnds head tail, rest)

/-- The length of the run of zeros in front. -/
def zeroRun (groups : List UInt16) : Nat := (groups.takeWhile (· == 0)).length

/-- The start and the length of the first longest run of zeros. -/
def longestRun : List UInt16 → Nat × Nat
  | [] => (0, 0)
  | g :: groups =>
    let here := zeroRun (g :: groups)
    let (start, length) := longestRun groups
    if length ≤ here then (0, here) else (start + 1, length)

/-- Groups in hexadecimal with colons between them. -/
def writeGroups : List UInt16 → List Char
  | [] => []
  | [g] => Nat.toDigits 16 g.toNat
  | g :: h :: groups => Nat.toDigits 16 g.toNat ++ ':' :: writeGroups (h :: groups)

/-- The version 4 address that an address embeds, if its first groups are those of the embedding. -/
def mapped? (ip : Ipv6) : Option Ipv4 :=
  match ip.groups.toList with
  | [0, 0, 0, 0, 0, 0xFFFF, g, h] =>
    some ⟨(g >>> 8).toUInt8, g.toUInt8, (h >>> 8).toUInt8, h.toUInt8⟩
  | _ => none

/-- An address in its canonical text. -/
def write (ip : Ipv6) : List Char :=
  match ip.mapped? with
  | some v4 => "::ffff:".toList ++ v4.write
  | none =>
    let groups := ip.groups.toList
    let (start, length) := longestRun groups
    if 1 < length then
      writeGroups (groups.take start) ++ ':' :: ':' :: writeGroups (groups.drop (start + length))
    else writeGroups groups

end Ipv6

/-! ## Both versions -/

namespace Ip

/-- Reads an address of either version. -/
def read (s : List Char) : Option (Ip × List Char) :=
  match Ipv4.read s with
  | some (ip, rest) => some (.v4 ip, rest)
  | none => (Ipv6.read s).map fun (ip, rest) => (.v6 ip, rest)

/-- The address that a whole text stands for. -/
def parse? (text : String) : Option Ip :=
  match read text.toList with
  | some (ip, []) => some ip
  | _ => none

end Ip
end Switchboard
