/-!
# Binary floating point with 64 bits

A finite number is `± m · 2^q` with `m < 2^53` and `-1074 ≤ q ≤ 971`. The exponent is kept as the
natural number `q + 1074`, so that every magnitude is a ratio of natural numbers and rounding is
exact arithmetic on them.

* `ofRatio` rounds a ratio to the nearest number, a tie to the even mantissa; it answers `none`
  when the result would be too large.
-/

namespace Switchboard

/-- A number with a 53-bit mantissa. `finite s m k` stands for `± m · 2^k / 2^1074`. -/
inductive Binary64
  | finite (negative : Bool) (mantissa exponent : Nat)
  | infinite (negative : Bool)
  | nan
deriving DecidableEq, Repr, Inhabited

namespace Binary64

/-- The magnitude `m · 2^k / 2^1074` of a finite number. -/
structure Magnitude where
  mantissa : Nat
  exponent : Nat
deriving DecidableEq, Repr, Inhabited

/-- The scale that makes every exponent a natural number. -/
def scale : Nat := Nat.pow 2 1074

/-- The number of bits of a mantissa. -/
def precision : Nat := 53

/-- The largest exponent of a finite number. -/
def maxExponent : Nat := 2045

/-- `num / den` rounded to the nearest natural number, a tie to the even one. -/
def roundDiv (num den : Nat) : Nat :=
  let q := num / den
  let r := num % den
  if 2 * r < den then q
  else if den < 2 * r then q + 1
  else if q % 2 = 0 then q
  else q + 1

/-- How many bits of a natural number lie above the mantissa. -/
def excessBits (n : Nat) : Nat :=
  if n = 0 then 0 else n.log2 + 1 - precision

/-- The magnitude nearest to `num / den`, a tie to the even mantissa; `none` if it would be
infinite. -/
def ofRatio (num den : Nat) : Option Magnitude :=
  let scaled := num * scale
  let k := excessBits (scaled / den)
  let m := roundDiv scaled (den * Nat.pow 2 k)
  let result : Magnitude :=
    if m = Nat.pow 2 precision then ⟨Nat.pow 2 (precision - 1), k + 1⟩ else ⟨m, k⟩
  if result.exponent ≤ maxExponent then some result else none

/-- The exponents of ten beyond which a number below one with that many places, or above one with
that many digits, is zero or too large without any arithmetic. -/
def decimalReach : Int := 400

/-- The magnitude nearest to the whole number with the given decimal digits times `10^exponent`;
`none` if it would be infinite. -/
def ofDecimal (digits : List Char) (exponent : Int) : Option Magnitude :=
  let digits := digits.dropWhile (· == '0')
  let point := digits.length + exponent
  let n := Nat.ofDigitChars 10 digits 0
  if digits = [] ∨ point < -decimalReach then some ⟨0, 0⟩
  else if decimalReach < point then none
  else
    match exponent with
    | .ofNat e => ofRatio (n * Nat.pow 10 e) 1
    | .negSucc e => ofRatio n (Nat.pow 10 (e + 1))

namespace Magnitude

/-- The numerator of the magnitude over `scale`. -/
def scaled (x : Magnitude) : Nat := x.mantissa * Nat.pow 2 x.exponent

/-- The product, rounded. -/
def mul (x y : Magnitude) : Option Magnitude := ofRatio (x.scaled * y.scaled) (scale * scale)

/-- The quotient, rounded. -/
def div (x y : Magnitude) : Option Magnitude := ofRatio x.scaled y.scaled

end Magnitude

/-- A magnitude with a sign. -/
def ofMagnitude (negative : Bool) (x : Magnitude) : Binary64 :=
  .finite negative x.mantissa x.exponent

/-- The zero with a sign. -/
def zero (negative : Bool) : Binary64 := .finite negative 0 0

end Binary64
end Switchboard
