import ClassAtlas.Text.DecimalDigit

/-! Multiplicities: a bound, or a lower number, two points and an upper bound. A bound is a number in
the decimal digits of any script, or a star. -/

namespace ClassAtlas.Multiplicity

def isNumber (cs : List Char) : Bool := !cs.isEmpty && cs.all Text.isDecimalDigit

def isBound (cs : List Char) : Bool := cs == ['*'] || isNumber cs

/-- Whether the text is a number, two points and a bound. -/
def isRange (cs : List Char) : Bool :=
  isNumber (cs.takeWhile Text.isDecimalDigit) &&
    match cs.dropWhile Text.isDecimalDigit with
    | '.' :: '.' :: upper => isBound upper
    | _ => false

def isValid (s : String) : Bool := isBound s.toList || isRange s.toList

example : ["3", "*", "0..1", "1..*", "٣"].all isValid = true := by decide

example : ["", "*..1", "1..", "1...2", " 1", "-1"].any isValid = false := by decide

end ClassAtlas.Multiplicity
