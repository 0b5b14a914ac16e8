import Switchboard.Number.Binary64

/-!
# Shortest decimal texts

The decimal text of a binary number has the fewest digits that still round to it, and among those
the digits nearest to its value. For one digit, two digits and so on up to seventeen, the number's
two neighbours on the decimal grid are tested in exact arithmetic; the first grid with a hit wins.

The result is a digit list with the place of its decimal point; `plain` writes it positionally.
-/

namespace Switchboard

/-- Decimal digits `d₁d₂…` with the point: the value is `0.d₁d₂… · 10^point`. -/
structure Decimal where
  digits : List Char
  point : Int
deriving DecidableEq, Repr

namespace Shortest

/-- The interval of ratios that round to a magnitude, over the common denominator
`4 · scale`; its ends belong to it iff `closed`. -/
structure Interval where
  low : Nat
  value : Nat
  high : Nat
  closed : Bool

/-- The interval that rounds to `m · 2^k`: half a unit to each side, but a quarter below a power of
two, where the units halve. A factor of two more keeps the quarter whole. -/
def Interval.of (x : Binary64.Magnitude) : Interval :=
  let unit := Nat.pow 2 x.exponent
  let value := 4 * x.mantissa * unit
  let narrow := x.mantissa = Nat.pow 2 (Binary64.precision - 1) ∧ 0 < x.exponent
  ⟨value - (if narrow then unit else 2 * unit), value, value + 2 * unit, x.mantissa % 2 = 0⟩

/-- Whether the ratio `n / 1` in the interval's unit rounds to its number. -/
def Interval.contains (i : Interval) (n : Nat) : Bool :=
  if i.closed then i.low ≤ n && n ≤ i.high else i.low < n && n < i.high

/-- Steps of ten: a ratio and a decimal grid brought to one denominator. -/
structure Grid where
  /-- What the interval's numbers are multiplied with. -/
  factor : Nat
  /-- The distance of two grid points. -/
  step : Nat

/-- The denominator of an interval. -/
def denominator : Nat := 4 * Binary64.scale

/-- The grid of the multiples of `10^e`. -/
def Grid.of (e : Int) : Grid :=
  match e with
  | .ofNat n => ⟨1, denominator * Nat.pow 10 n⟩
  | .negSucc n => ⟨Nat.pow 10 (n + 1), denominator⟩

/-- The multiple of a grid's step that is nearest to an interval's value among those that round to
it, of the two neighbours; a tie goes to the even multiple. -/
def Grid.hit? (g : Grid) (i : Interval) : Option Nat :=
  let value := i.value * g.factor
  let scaled : Interval := ⟨i.low * g.factor, value, i.high * g.factor, i.closed⟩
  let below := value / g.step
  let above := below + 1
  let hitsBelow := 0 < below && scaled.contains (below * g.step)
  let hitsAbove := scaled.contains (above * g.step)
  let toBelow := value - below * g.step
  let toAbove := above * g.step - value
  if hitsBelow && hitsAbove then
    if toBelow < toAbove then some below
    else if toAbove < toBelow then some above
    else if below % 2 = 0 then some below else some above
  else if hitsBelow then some below
  else if hitsAbove then some above
  else none

/-- The exponent `e` with `10^e ≤ num / den < 10^(e+1)`, searched upwards from `-330`. -/
def decimalExponent (num den : Nat) : Int :=
  let steps := (List.range 660).takeWhile fun j =>
    if j < 330 then den ≤ num * Nat.pow 10 (330 - j) else den * Nat.pow 10 (j - 330) ≤ num
  (steps.length : Int) - 331

/-- Tries the grids with `n`, `n + 1`, … digits, at most `tries` of them. -/
def search (i : Interval) (top : Int) : Nat → Nat → Option (Nat × Int)
  | 0, _ => none
  | tries + 1, n =>
    let e := top - n + 1
    match (Grid.of e).hit? i with
    | some d => some (d, e)
    | none => search i top tries (n + 1)

/-- Digits without the zeros at their end. -/
def trimZeros (digits : List Char) : List Char :=
  (digits.reverse.dropWhile (· == '0')).reverse

/-- The shortest decimal of a magnitude; zero has the single digit `0`. -/
def ofMagnitude (x : Binary64.Magnitude) : Decimal :=
  if x.mantissa = 0 then ⟨['0'], 1⟩
  else
    let i := Interval.of x
    let top := decimalExponent i.value denominator
    match search i top 17 1 with
    | some (d, e) =>
      let digits := Nat.toDigits 10 d
      ⟨trimZeros digits, digits.length + e⟩
    | none => ⟨['0'], 1⟩

end Shortest

namespace Decimal

/-- The digits in positional notation, with at least one digit on each side of the point. -/
def plain (d : Decimal) : List Char :=
  match d.point with
  | .ofNat 0 => ['0', '.'] ++ d.digits
  | .negSucc n => ['0', '.'] ++ List.replicate (n + 1) '0' ++ d.digits
  | .ofNat n =>
    if d.digits.length ≤ n then d.digits ++ List.replicate (n - d.digits.length) '0' ++ ['.', '0']
    else d.digits.take n ++ ['.'] ++ d.digits.drop n

/-- The digits with a power of ten behind them, as in `1.5e-7` and `1e+23`: one digit before the
point, no point without a digit after it, and always a sign on the exponent. -/
def scientific (d : Decimal) : List Char :=
  let e := d.point - 1
  let mantissa := match d.digits with
    | [] => ['0']
    | [x] => [x]
    | x :: xs => x :: '.' :: xs
  mantissa ++ ['e', if e < 0 then '-' else '+'] ++ Nat.toDigits 10 e.natAbs

end Decimal
end Switchboard
