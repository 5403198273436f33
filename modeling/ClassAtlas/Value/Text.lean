import ClassAtlas.Number.Shortest
import ClassAtlas.Text.Printable
import ClassAtlas.Value.Basic

/-! Texts of values in messages. A quoted text stands in single quotes, or in double quotes when it
holds a single quote and no double one; characters that do not print are written as escapes. -/

namespace ClassAtlas

/-- The digits of a number in base sixteen, lower case, at least `width` of them. -/
def hexDigits (width n : Nat) : List Char :=
  let digits := Nat.toDigits 16 n
  List.replicate (width - digits.length) '0' ++ digits

namespace Value

/-- Numbers from one ten-thousandth up to ten to the sixteenth are written without an exponent. -/
def numberStyle : Number.FloatStyle where
  positionalFrom := -4
  positionalBelow := 16
  exponentWidth := 2
  infinity := "inf"
  notANumber := "nan"

/-- One character of a quoted text. -/
def quotedChar (mark c : Char) : List Char :=
  if c == mark || c == '\\' then ['\\', c]
  else if c == '\n' then ['\\', 'n']
  else if c == '\r' then ['\\', 'r']
  else if c == '\t' then ['\\', 't']
  else if Text.isPrintable c then [c]
  else if c.toNat < 0x100 then '\\' :: 'x' :: hexDigits 2 c.toNat
  else if c.toNat < 0x10000 then '\\' :: 'u' :: hexDigits 4 c.toNat
  else '\\' :: 'U' :: hexDigits 8 c.toNat

/-- A text in quotes. -/
def quotedText (s : String) : String :=
  let cs := s.toList
  let mark := if cs.contains '\'' && !cs.contains '"' then '"' else '\''
  String.ofList (mark :: cs.flatMap (quotedChar mark) ++ [mark])

mutual
/-- A value with its texts in quotes. -/
def quoted : Value → String
  | null => "None"
  | bool true => "True"
  | bool false => "False"
  | int n => toString n
  | float x => numberStyle.text x
  | str s => quotedText s
  | list items => "[" ++ quotedItems items ++ "]"
  | object fields => "\x7b" ++ quotedFields fields ++ "\x7d"

def quotedItems : List Value → String
  | [] => ""
  | [v] => quoted v
  | v :: rest => quoted v ++ ", " ++ quotedItems rest

def quotedFields : List (String × Value) → String
  | [] => ""
  | [(k, v)] => quotedText k ++ ": " ++ quoted v
  | (k, v) :: rest => quotedText k ++ ": " ++ quoted v ++ ", " ++ quotedFields rest
end

/-- A value inside a message: a text as it is, anything else as it is quoted. -/
def shown : Value → String
  | str s => s
  | v => quoted v

end Value

end ClassAtlas
