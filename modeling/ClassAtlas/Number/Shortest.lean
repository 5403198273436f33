import ClassAtlas.Number.Exact

/-! The text of a floating-point number with the fewest digits that read back as that number. For one,
two, … seventeen digits the two decimals around the number are tested against the interval of reals
that round to it, in exact arithmetic. The first grid with a hit wins, and of two hits the nearer. -/

namespace ClassAtlas.Number

/-- A positive number as a fraction with the half-gaps to its neighbours. A real `r` rounds to the
number when `(4 * numerator - below * unit) / (4 * denominator) ≤ r` and `r` is at most the same with
`+ above * unit`; the ends count when `closed`. -/
structure Rounding where
  numerator : Nat
  denominator : Nat
  unit : Nat
  below : Nat
  closed : Bool

/-- The fraction for a positive number scaled by `10 ^ -scale`. -/
def Exact.rounding (x : Exact) (scale : Int) : Rounding :=
  let unit := Nat.pow 2 x.exponent.toNat * Nat.pow 10 (-scale).toNat
  { numerator := x.mantissa * unit
    denominator := Nat.pow 2 (-x.exponent).toNat * Nat.pow 10 scale.toNat
    unit := unit
    below := if x.mantissa = leastNormal && -1074 < x.exponent then 1 else 2
    closed := x.mantissa % 2 == 0 }

/-- Whether the whole number `n` rounds to the scaled number. -/
def Rounding.admits (r : Rounding) (n : Nat) : Bool :=
  let here := 4 * n * r.denominator
  let low := 4 * r.numerator - r.below * r.unit
  let high := 4 * r.numerator + 2 * r.unit
  if r.closed then low ≤ here && here ≤ high else low < here && here < high

/-- The admitted neighbour on the grid of whole numbers, the nearer one and on a tie the even one. -/
def Rounding.neighbour? (r : Rounding) : Option Nat :=
  let floor := r.numerator / r.denominator
  let rest := 2 * (r.numerator % r.denominator)
  let nearer := if rest < r.denominator || (rest == r.denominator && floor % 2 == 0)
    then floor else floor + 1
  let other := if nearer = floor then floor + 1 else floor
  if r.admits nearer then some nearer else if r.admits other then some other else none

/-- The exponent of the leading decimal digit, searched upward from an estimate. -/
def leadingExponent (numerator denominator : Nat) : Nat → Int → Int
  | 0, e => e
  | steps + 1, e =>
    let next := e + 1
    if Nat.pow 10 next.toNat * denominator ≤ numerator * Nat.pow 10 (-next).toNat
    then leadingExponent numerator denominator steps next else e

/-- Decimal digits and the exponent of the first of them. -/
structure Decimal where
  digits : List Char
  exponent : Int

/-- The fewest digits for a positive number, tried from `count` digits on. -/
def shortestFrom (x : Exact) (leading : Int) : Nat → Nat → Decimal
  | 0, count => ⟨Nat.toDigits 10 ((x.rounding (leading - count + 1)).numerator), leading⟩
  | more + 1, count =>
    match (x.rounding (leading - count + 1)).neighbour? with
    | some n =>
      let digits := Nat.toDigits 10 n
      ⟨digits, leading + (digits.length - count)⟩
    | none => shortestFrom x leading more (count + 1)

/-- The fewest digits that read back as the positive number `x`, without closing zeros. -/
def Exact.shortest (x : Exact) : Decimal :=
  let r := x.rounding 0
  let bits : Int := (Nat.log2 r.numerator : Int) - Nat.log2 r.denominator
  let leading := leadingExponent r.numerator r.denominator 4 (bits * 30103 / 100000 - 2)
  let found := shortestFrom x leading 17 1
  { found with digits := (found.digits.reverse.dropWhile (· == '0')).reverse }

/-- How the digits of a number are laid out. -/
structure FloatStyle where
  /-- Least exponent of the leading digit that is written without an exponent mark. -/
  positionalFrom : Int
  /-- First exponent that needs the mark again. -/
  positionalBelow : Int
  /-- Least number of digits after the exponent's sign. -/
  exponentWidth : Nat
  infinity : String
  notANumber : String

/-- Digits with the point after the digit of exponent zero, filled with zeros on either side. -/
def Decimal.positional (d : Decimal) : List Char :=
  if d.exponent < 0 then
    '0' :: '.' :: (List.replicate ((-d.exponent).toNat - 1) '0' ++ d.digits)
  else
    let whole := d.exponent.toNat + 1
    let filled := d.digits ++ List.replicate (whole - d.digits.length) '0'
    let fraction := filled.drop whole
    filled.take whole ++ '.' :: (if fraction.isEmpty then ['0'] else fraction)

/-- Digits with the point after the first, the mark and a signed exponent. -/
def Decimal.scientific (d : Decimal) (width : Nat) : List Char :=
  let power := Nat.toDigits 10 d.exponent.natAbs
  let head := match d.digits with
    | [] => ['0']
    | [c] => [c]
    | c :: rest => c :: '.' :: rest
  head ++ 'e' :: (if d.exponent < 0 then '-' else '+') ::
    (List.replicate (width - power.length) '0' ++ power)

/-- The shortest text of a number in a given style. -/
def FloatStyle.text (style : FloatStyle) (x : Float) : String :=
  match Exact.ofFloat? x with
  | none => if x.isNaN then style.notANumber else if x < 0 then "-" ++ style.infinity else style.infinity
  | some e =>
    let sign := if e.negative then ['-'] else []
    if e.mantissa = 0 then String.ofList (sign ++ ['0', '.', '0'])
    else
      let d := e.shortest
      let body := if style.positionalFrom ≤ d.exponent && d.exponent < style.positionalBelow
        then d.positional else d.scientific style.exponentWidth
      String.ofList (sign ++ body)

end ClassAtlas.Number
