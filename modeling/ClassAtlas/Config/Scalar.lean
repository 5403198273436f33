import ClassAtlas.Value.Json

/-! What an unquoted word of a configuration file means: nothing, a truth value, an integer in one of
several bases, a decimal number, or a text. -/

namespace ClassAtlas.Config

def nullWords : List String := ["", "~", "null", "Null", "NULL"]

def trueWords : List String := ["yes", "Yes", "YES", "true", "True", "TRUE", "on", "On", "ON"]

def falseWords : List String := ["no", "No", "NO", "false", "False", "FALSE", "off", "Off", "OFF"]

/-- The value of digits in a base, where underscores only set groups apart. -/
def inBase? (base : Nat) (cs : List Char) : Option Nat :=
  let digits := cs.filter (· != '_')
  if digits.isEmpty then none
  else digits.foldlM (fun n c => do
    let d ← Json.hexValue? c
    if d < base then some (base * n + d) else none) 0

/-- Numbers set apart by colons, each after the first below sixty. -/
def sexagesimal? (cs : List Char) : Option Nat :=
  match (String.ofList cs).splitOn ":" with
  | head :: next :: rest =>
    if head.startsWith "0" then none
    else do
      let whole ← inBase? 10 head.toList
      (next :: rest).foldlM (fun n part => do
        let cs := part.toList
        if 2 < cs.length || cs.contains '_' then none
        let d ← inBase? 10 cs
        if d < 60 then some (60 * n + d) else none) whole
  | _ => none

/-- An integer without a sign: binary, octal, hexadecimal, sexagesimal or decimal. -/
def natural? : List Char → Option Nat
  | ['0'] => some 0
  | '0' :: 'b' :: rest => inBase? 2 rest
  | '0' :: 'x' :: rest => inBase? 16 rest
  | '0' :: rest => inBase? 8 rest
  | c :: rest =>
    if c.isDigit then
      if rest.contains ':' then sexagesimal? (c :: rest) else inBase? 10 (c :: rest)
    else none
  | [] => none

/-- A decimal number without a sign; it has a point, and its exponent, if any, has a sign. -/
def decimal? (cs : List Char) : Option Float :=
  let plain := cs.filter (· != '_')
  let mantissa := plain.takeWhile fun c => c != 'e' && c != 'E'
  let power := plain.drop mantissa.length
  let signed := match power with
    | [] => true
    | _ :: sign :: digits => (sign == '+' || sign == '-') && !digits.isEmpty && digits.all Char.isDigit
    | _ => false
  let leading := match cs with
    | '.' :: d :: _ => d.isDigit
    | c :: _ => c.isDigit
    | [] => false
  if leading && signed && mantissa.count '.' == 1 &&
      mantissa.all fun c => c.isDigit || c == '.' then
    Number.floatOfText? (String.ofList plain)
  else none

def infinityWords : List String := [".inf", ".Inf", ".INF"]

def notANumberWords : List String := [".nan", ".NaN", ".NAN"]

/-- The number that a word stands for. -/
def number? (s : String) : Option Value :=
  let (negative, body) := Number.signOf s.toList
  if infinityWords.contains (String.ofList body) then
    some (.float (if negative then -1.0 / 0.0 else 1.0 / 0.0))
  else if notANumberWords.contains s then some (.float (0.0 / 0.0))
  else
    match natural? body, decimal? body with
    | some n, _ => some (.int (if negative then -(n : Int) else n))
    | none, some x => some (.float (if negative then -x else x))
    | none, none => none

/-- The meaning of an unquoted word. -/
def scalar (s : String) : Value :=
  if nullWords.contains s then .null
  else if trueWords.contains s then .bool true
  else if falseWords.contains s then .bool false
  else (number? s).getD (.str s)

end ClassAtlas.Config
