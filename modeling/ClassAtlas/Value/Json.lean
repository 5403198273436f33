import ClassAtlas.Value.Text

/-! Reading and writing values as JSON. The reader takes whole numbers as integers and every other
number as floating point, keeps the last of several values under one key, and accepts the words `NaN`
and `Infinity`. The writer escapes everything outside the printable ASCII range. -/

namespace ClassAtlas.Json

/-- A text is no JSON; `position` counts the characters before the place where that shows. -/
structure Malformed where
  position : Nat
deriving Repr, DecidableEq

/-! A step of the reader gives a result with the rest of the text, or the rest at which it failed. -/

def isSpace (c : Char) : Bool := c == ' ' || c == '\t' || c == '\n' || c == '\r'

def skipSpace (cs : List Char) : List Char := cs.dropWhile isSpace

def hexValue? (c : Char) : Option Nat :=
  if '0' ≤ c && c ≤ '9' then some (c.toNat - '0'.toNat)
  else if 'a' ≤ c && c ≤ 'f' then some (c.toNat - 'a'.toNat + 10)
  else if 'A' ≤ c && c ≤ 'F' then some (c.toNat - 'A'.toNat + 10)
  else none

/-- Four hexadecimal digits. -/
def hexUnit? : List Char → Option (Nat × List Char)
  | a :: b :: c :: d :: rest => do
    let a ← hexValue? a
    let b ← hexValue? b
    let c ← hexValue? c
    let d ← hexValue? d
    return (((a * 16 + b) * 16 + c) * 16 + d, rest)
  | _ => none

/-- The character of a simple escape. -/
def escaped? : Char → Option Char
  | '"' => some '"'
  | '\\' => some '\\'
  | '/' => some '/'
  | 'b' => some '\x08'
  | 'f' => some '\x0c'
  | 'n' => some '\n'
  | 'r' => some '\r'
  | 't' => some '\t'
  | _ => none

/-- A character beyond the basic plane from its two halves. -/
def surrogatePair? (high low : Nat) : Option Char :=
  if 0xD800 ≤ high && high < 0xDC00 && 0xDC00 ≤ low && low < 0xE000
  then some (Char.ofNat (0x10000 + (high - 0xD800) * 0x400 + (low - 0xDC00)))
  else none

/-- The rest of a text after its opening quote; `opening` is the text from that quote on. -/
def readText (opening : List Char) : Nat → List Char → List Char →
    Except (List Char) (String × List Char)
  | 0, _, _ => .error opening
  | _ + 1, _, [] => .error opening
  | _ + 1, done, '"' :: rest => .ok (String.ofList done.reverse, rest)
  | fuel + 1, done, '\\' :: 'u' :: rest =>
    match hexUnit? rest with
    | none => .error ('u' :: rest)
    | some (unit, after) =>
      let alone := if 0xD800 ≤ unit && unit < 0xE000 then '\uFFFD' else Char.ofNat unit
      match after with
      | '\\' :: 'u' :: more =>
        match (hexUnit? more).bind fun (low, last) => (surrogatePair? unit low).map (·, last) with
        | some (c, last) => readText opening fuel (c :: done) last
        | none => readText opening fuel (alone :: done) after
      | _ => readText opening fuel (alone :: done) after
  | fuel + 1, done, '\\' :: c :: rest =>
    match escaped? c with
    | some d => readText opening fuel (d :: done) rest
    | none => .error ('\\' :: c :: rest)
  | fuel + 1, done, c :: rest =>
    if c.toNat < 0x20 then .error (c :: rest) else readText opening fuel (c :: done) rest

/-- A number: whole digits without a leading zero, then perhaps a fraction and an exponent. -/
def readNumber (cs : List Char) : Except (List Char) (Value × List Char) :=
  let (negative, body) := match cs with
    | '-' :: rest => (true, rest)
    | _ => (false, cs)
  let digits (text : List Char) := (text.takeWhile Char.isDigit, text.dropWhile Char.isDigit)
  let values (text : List Char) := text.map fun c => c.toNat - '0'.toNat
  let (whole, rest) := match body with
    | '0' :: rest => (['0'], rest)
    | _ => digits body
  if whole.isEmpty then .error cs
  else
    let (fraction, rest) := match rest with
      | '.' :: more =>
        let (found, after) := digits more
        if found.isEmpty then ([], rest) else (found, after)
      | _ => ([], rest)
    let (power?, rest) := match rest with
      | mark :: more =>
        if mark == 'e' || mark == 'E' then
          let (down, body) := Number.signOf more
          let (found, after) := digits body
          if found.isEmpty then (none, rest)
          else
            let power : Int := Number.ofDigitValues (values found)
            (some (if down then -power else power), after)
        else (none, rest)
      | [] => (none, rest)
    if fraction.isEmpty && power?.isNone then
      let n : Int := Number.ofDigitValues (values whole)
      .ok (.int (if negative then -n else n), rest)
    else
      let numeral : Number.Numeral :=
        ⟨negative, Number.ofDigitValues (values (whole ++ fraction)),
          power?.getD 0 - (fraction.length : Int)⟩
      .ok (.float numeral.toFloat, rest)

/-- The words of the format and what they mean. -/
def literals : List (String × Value) :=
  [("null", .null), ("true", .bool true), ("false", .bool false), ("NaN", .float (0.0 / 0.0)),
    ("Infinity", .float (1.0 / 0.0)), ("-Infinity", .float (-1.0 / 0.0))]

/-- A word at the start of a text. -/
def readLiteral? (cs : List Char) : Option (Value × List Char) :=
  (literals.find? fun (word, _) => word.toList.isPrefixOf cs).map
    fun (word, value) => (value, cs.drop word.length)

mutual
def readValue : Nat → List Char → Except (List Char) (Value × List Char)
  | 0, cs => .error cs
  | _ + 1, [] => .error []
  | fuel + 1, c :: rest =>
    if c == '"' then (readText (c :: rest) (rest.length + 1) [] rest).map fun (s, r) => (.str s, r)
    else if c == '[' then
      match skipSpace rest with
      | ']' :: after => .ok (.list [], after)
      | items => (readItems fuel [] items).map fun (vs, r) => (.list vs, r)
    else if c == '\x7b' then
      match skipSpace rest with
      | '\x7d' :: after => .ok (.object [], after)
      | fields => (readFields fuel [] fields).map fun (fs, r) => (.object fs, r)
    else
      match readLiteral? (c :: rest) with
      | some found => .ok found
      | none => readNumber (c :: rest)

/-- Items up to the closing bracket. -/
def readItems : Nat → List Value → List Char → Except (List Char) (List Value × List Char)
  | 0, _, cs => .error cs
  | fuel + 1, done, cs => do
    let (v, rest) ← readValue fuel cs
    match skipSpace rest with
    | ']' :: after => return ((v :: done).reverse, after)
    | ',' :: more => readItems fuel (v :: done) (skipSpace more)
    | other => .error other

/-- Fields up to the closing brace. -/
def readFields : Nat → List (String × Value) → List Char →
    Except (List Char) (List (String × Value) × List Char)
  | 0, _, cs => .error cs
  | fuel + 1, done, cs => do
    match cs with
    | '"' :: body =>
      let (key, rest) ← readText cs (body.length + 1) [] body
      match skipSpace rest with
      | ':' :: more =>
        let (v, rest) ← readValue fuel (skipSpace more)
        let done := Value.setField key v done
        match skipSpace rest with
        | '\x7d' :: after => return (done, after)
        | ',' :: more => readFields fuel done (skipSpace more)
        | other => .error other
      | other => .error other
    | other => .error other
end

/-- Reads a whole text as one value. -/
def parse (s : String) : Except Malformed Value :=
  let cs := s.toList
  let failure (rest : List Char) : Malformed := ⟨cs.length - rest.length⟩
  match readValue (cs.length + 1) (skipSpace cs) with
  | .error rest => .error (failure rest)
  | .ok (v, rest) =>
    match skipSpace rest with
    | [] => .ok v
    | extra => .error (failure extra)

/-- One UTF-16 unit as an escape. -/
def unitEscape (n : Nat) : List Char := '\\' :: 'u' :: hexDigits 4 n

/-- One character of a written text. -/
def writtenChar (c : Char) : List Char :=
  if c == '"' || c == '\\' then ['\\', c]
  else if c == '\n' then ['\\', 'n']
  else if c == '\r' then ['\\', 'r']
  else if c == '\t' then ['\\', 't']
  else if c == '\x08' then ['\\', 'b']
  else if c == '\x0c' then ['\\', 'f']
  else if 0x20 ≤ c.toNat && c.toNat < 0x7F then [c]
  else if c.toNat < 0x10000 then unitEscape c.toNat
  else
    let above := c.toNat - 0x10000
    unitEscape (0xD800 + above / 0x400) ++ unitEscape (0xDC00 + above % 0x400)

def writtenText (s : String) : String :=
  String.ofList ('"' :: s.toList.flatMap writtenChar ++ ['"'])

/-- Numbers beyond the finite ones have names of their own. -/
def numberStyle : Number.FloatStyle :=
  { Value.numberStyle with infinity := "Infinity", notANumber := "NaN" }

/-- How the parts of a list or an object are set apart. -/
structure Layout where
  /-- Columns of one level; without them everything stands on one line. -/
  indent : Option Nat

/-- The break before the first part at a depth, between parts, or before the closing bracket. -/
def Layout.lineBreak (layout : Layout) (depth : Nat) : String :=
  match layout.indent with
  | none => ""
  | some columns => "\n" ++ String.ofList (List.replicate (columns * depth) ' ')

def Layout.separator (layout : Layout) (depth : Nat) : String :=
  match layout.indent with
  | none => ", "
  | some _ => "," ++ layout.lineBreak depth

mutual
def write (layout : Layout) (depth : Nat) : Value → String
  | .null => "null"
  | .bool true => "true"
  | .bool false => "false"
  | .int n => toString n
  | .float x => numberStyle.text x
  | .str s => writtenText s
  | .list [] => "[]"
  | .list items =>
    "[" ++ layout.lineBreak (depth + 1) ++ writeItems layout (depth + 1) items ++
      layout.lineBreak depth ++ "]"
  | .object [] => "\x7b\x7d"
  | .object fields =>
    "\x7b" ++ layout.lineBreak (depth + 1) ++ writeFields layout (depth + 1) fields ++
      layout.lineBreak depth ++ "\x7d"

def writeItems (layout : Layout) (depth : Nat) : List Value → String
  | [] => ""
  | [v] => write layout depth v
  | v :: rest => write layout depth v ++ layout.separator depth ++ writeItems layout depth rest

def writeFields (layout : Layout) (depth : Nat) : List (String × Value) → String
  | [] => ""
  | [(k, v)] => writtenText k ++ ": " ++ write layout depth v
  | (k, v) :: rest =>
    writtenText k ++ ": " ++ write layout depth v ++ layout.separator depth ++
      writeFields layout depth rest
end

/-- A value on one line. -/
def compact (v : Value) : String := write ⟨none⟩ 0 v

/-- A value with one part to a line, indented by two columns a level. -/
def indented (v : Value) : String := write ⟨some 2⟩ 0 v

end ClassAtlas.Json
