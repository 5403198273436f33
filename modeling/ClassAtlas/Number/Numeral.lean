import ClassAtlas.Text.Blank
import ClassAtlas.Text.DecimalDigit

/-! Reading numerals. A numeral is a sign, a whole number of digits and a power of ten; it denotes the
nearest floating-point number. -/

namespace ClassAtlas.Number

/-- A decimal numeral `± digits * 10 ^ exponent`. -/
structure Numeral where
  negative : Bool
  digits : Nat
  exponent : Int
deriving Repr, DecidableEq

/-- The nearest floating-point number. Beyond four hundred places from the point every numeral is an
infinity or a zero, so huge exponents cost nothing. -/
def Numeral.toFloat (n : Numeral) : Float :=
  let places : Int := (Nat.toDigits 10 n.digits).length
  let magnitude : Float :=
    if n.digits = 0 then 0.0
    else if 400 < places + n.exponent then 1.0 / 0.0
    else if places + n.exponent < -400 then 0.0
    else if 0 ≤ n.exponent then Float.ofScientific n.digits false n.exponent.toNat
    else Float.ofScientific n.digits true (-n.exponent).toNat
  if n.negative then -magnitude else magnitude

/-- The nearest floating-point number to a whole number; nothing when it is out of range. -/
def floatOfInt? (n : Int) : Option Float :=
  let magnitude := Float.ofScientific n.natAbs false 0
  if magnitude.isInf then none else some (if n < 0 then -magnitude else magnitude)

/-- The value of a run of digit values, most significant first. -/
def ofDigitValues (values : List Nat) : Nat := values.foldl (fun n d => 10 * n + d) 0

/-- A run of digits and what follows it. A lone underscore may stand between two digits. -/
def digitRun (grouped : Bool) : List Char → List Nat × List Char
  | [] => ([], [])
  | [c] =>
    match Text.digitValue? c with
    | some d => ([d], [])
    | none => ([], [c])
  | c :: d :: rest =>
    match Text.digitValue? c with
    | none => ([], c :: d :: rest)
    | some value =>
      if grouped && d == '_' then
        match rest with
        | e :: _ =>
          if Text.isDecimalDigit e then
            let (more, after) := digitRun grouped rest
            (value :: more, after)
          else ([value], d :: rest)
        | [] => ([value], d :: rest)
      else
        let (more, after) := digitRun grouped (d :: rest)
        (value :: more, after)

/-- A sign, if there is one, and what follows it. -/
def signOf : List Char → Bool × List Char
  | '-' :: rest => (true, rest)
  | '+' :: rest => (false, rest)
  | rest => (false, rest)

/-- Digits with an optional fraction and an optional exponent, to the end of the text. -/
def unsignedNumeral? (cs : List Char) : Option Numeral :=
  let (whole, rest) := digitRun true cs
  let (fraction, rest) := match rest with
    | '.' :: more => digitRun true more
    | _ => ([], rest)
  if whole.isEmpty && fraction.isEmpty then none
  else
    let base : Numeral := ⟨false, ofDigitValues (whole ++ fraction), -(fraction.length : Int)⟩
    match rest with
    | [] => some base
    | mark :: more =>
      if mark == 'e' || mark == 'E' then
        let (negative, more) := signOf more
        match digitRun true more with
        | ([], _) => none
        | (power, []) =>
          let power : Int := ofDigitValues power
          some { base with exponent := base.exponent + if negative then -power else power }
        | _ => none
      else none

/-- Blanks that may surround a numeral: all but the information separators. -/
def isNumeralBlank (c : Char) : Bool :=
  Text.isBlank c && !(0x1C ≤ c.toNat && c.toNat ≤ 0x1F)

/-- Reads a number from a text: a numeral in the digits of any script, or the name of an infinity or
of NaN in any case, with blanks around it. -/
def floatOfText? (s : String) : Option Float :=
  let cs := s.toList.dropWhile isNumeralBlank
  let cs := (cs.reverse.dropWhile isNumeralBlank).reverse
  let (negative, body) := signOf cs
  let word := String.ofList (body.map Char.toLower)
  if word == "inf" || word == "infinity" then some (if negative then -1.0 / 0.0 else 1.0 / 0.0)
  else if word == "nan" then some (0.0 / 0.0)
  else (unsignedNumeral? body).map fun n => Numeral.toFloat { n with negative := negative }

end ClassAtlas.Number
