/-!
# Blank characters

The characters with the Unicode property White_Space, and lines made of nothing else.
-/

namespace Switchboard.Blank

/-- The code points with the property White_Space, as inclusive ranges. -/
def ranges : List (Nat × Nat) :=
  [(0x09, 0x0D), (0x20, 0x20), (0x85, 0x85), (0xA0, 0xA0), (0x1680, 0x1680), (0x2000, 0x200A),
   (0x2028, 0x2029), (0x202F, 0x202F), (0x205F, 0x205F), (0x3000, 0x3000)]

/-- Whether a character is blank. -/
def isBlank (c : Char) : Bool :=
  ranges.any fun (lo, hi) => lo ≤ c.toNat && c.toNat ≤ hi

/-- Whether a line holds only blank characters. -/
def isBlankLine (line : List Char) : Bool := line.all isBlank

end Switchboard.Blank
