import ClassAtlas.Java.Token
import ClassAtlas.Text.IdentifierChar

/-! Java source text as tokens. Each reader splits a text into one token's characters and the rest, and
the two together are the text. Angle brackets that close are tokens of one character, because whether
several of them form one operator depends on where they stand. -/

namespace ClassAtlas.Java.Lexer

/-- The characters that were read and the rest. -/
abbrev Split := List Char × List Char

def isSpace (c : Char) : Bool :=
  c == ' ' || c == '\t' || c == '\n' || c == '\r' || c == '\x0b' || c == '\x0c'

def isWordStart (c : Char) : Bool := Text.isIdentifierStart c || c == '_' || c == '$'

def isWordPart (c : Char) : Bool := Text.isIdentifierContinue c || c == '$' || c == '¢'

/-- Puts a character before what was read. -/
def Split.cons (c : Char) (s : Split) : Split := (c :: s.1, s.2)

/-- Up to and with the end of a block comment; nothing if it has no end. -/
def blockEnd? : List Char → Option Split
  | '*' :: '/' :: rest => some (['*', '/'], rest)
  | c :: rest => (blockEnd? rest).map (Split.cons c)
  | [] => none

def isHex (c : Char) : Bool :=
  c.isDigit || ('a' ≤ c && c ≤ 'f') || ('A' ≤ c && c ≤ 'F')

def isOctal (c : Char) : Bool := '0' ≤ c && c ≤ '7'

/-- Whether an escape may go on with these characters. -/
def isEscape : List Char → Bool
  | 'x' :: a :: b :: _ => isHex a && isHex b
  | 'x' :: _ => false
  | 'u' :: a :: b :: c :: d :: _ => (isHex a && isHex b && isHex c && isHex d) || a == '\x7b'
  | 'u' :: a :: _ => a == '\x7b'
  | 'u' :: [] => false
  | _ :: _ => true
  | [] => false

/-- A literal that was read to its end: whether all its escapes are right, and the split. -/
structure Quoted where
  sound : Bool
  split : Split

def Quoted.cons (c : Char) (q : Quoted) : Quoted := { q with split := q.split.cons c }

/-- Up to and with the closing quote of a string. -/
def stringEnd? : List Char → Option Quoted
  | '"' :: rest => some ⟨true, ['"'], rest⟩
  | '\\' :: c :: rest =>
    (stringEnd? rest).map fun q =>
      { q with sound := q.sound && isEscape (c :: rest), split := (q.split.cons c).cons '\\' }
  | c :: rest => (stringEnd? rest).map (Quoted.cons c)
  | [] => none

/-- Up to and with the three quotes that close a text block. -/
def blockTextEnd? : List Char → Option Quoted
  | '"' :: '"' :: '"' :: rest => some ⟨true, ['"', '"', '"'], rest⟩
  | '\\' :: c :: rest => (blockTextEnd? rest).map fun q => (q.cons c).cons '\\'
  | c :: rest => (blockTextEnd? rest).map (Quoted.cons c)
  | [] => none

/-- Up to and with the closing quote of a character literal on one line. -/
def characterEnd? : List Char → Option Split
  | '\'' :: rest => some (['\''], rest)
  | '\n' :: _ => none
  | '\\' :: c :: rest => (characterEnd? rest).map fun s => (s.cons c).cons '\\'
  | c :: rest => (characterEnd? rest).map (Split.cons c)
  | [] => none

def takeWhile (p : Char → Bool) (cs : List Char) : Split := (cs.takeWhile p, cs.dropWhile p)

/-- The first part and what a second reader makes of the rest. -/
def andThen (first : Split) (second : List Char → Split) : Split :=
  let next := second first.2
  (first.1 ++ next.1, next.2)

/-- One character if it passes a test. -/
def oneOf (p : Char → Bool) : List Char → Split
  | c :: rest => if p c then ([c], rest) else ([], c :: rest)
  | [] => ([], [])

/-- Digits that may hold single or several underscores between them. -/
def digits (p : Char → Bool) : List Char → Split
  | c :: rest =>
    if p c then Split.cons c (digits p rest)
    else if c == '_' && (rest.dropWhile (· == '_')).head?.any p then Split.cons c (digits p rest)
    else ([], c :: rest)
  | [] => ([], [])

/-- An exponent, if its digits are there. -/
def exponent (mark : Char → Bool) (cs : List Char) : Split :=
  let head := andThen (oneOf mark cs) (oneOf fun c => c == '+' || c == '-')
  if (oneOf mark cs).1.isEmpty || !(head.2.head?.any Char.isDigit) then ([], cs)
  else andThen head (digits Char.isDigit)

def isFloatSuffix (c : Char) : Bool := c == 'f' || c == 'F' || c == 'd' || c == 'D'

def isLongSuffix (c : Char) : Bool := c == 'l' || c == 'L'

def isExponentMark (c : Char) : Bool := c == 'e' || c == 'E'

/-- What may follow the whole digits of a decimal number. -/
def fractionAndMore : List Char → Split
  | '.' :: rest =>
    andThen (andThen (Split.cons '.' (digits Char.isDigit rest)) (exponent isExponentMark))
      (oneOf isFloatSuffix)
  | rest =>
    let power := exponent isExponentMark rest
    if power.1.isEmpty then oneOf (fun c => isFloatSuffix c || isLongSuffix c) rest
    else andThen power (oneOf isFloatSuffix)

/-- What follows the whole digits of a hexadecimal number: perhaps a point with more digits, perhaps an
exponent, which is a power of two in decimal digits. -/
def hexFractionAndMore (cs : List Char) : Split :=
  let fraction := match cs with
    | '.' :: rest => Split.cons '.' (digits isHex rest)
    | rest => ([], rest)
  let power := exponent (fun c => c == 'p' || c == 'P') fraction.2
  if !power.1.isEmpty then andThen fraction fun _ => andThen power (oneOf isFloatSuffix)
  else if fraction.1.isEmpty then oneOf isLongSuffix cs
  else fraction

/-- Whether hexadecimal digits start here, perhaps behind a point. -/
def startsHex : List Char → Bool
  | '.' :: c :: _ => isHex c
  | c :: _ => isHex c
  | [] => false

/-- A number that starts with a digit, or with a point before a digit. -/
def number : List Char → Split
  | '0' :: x :: rest =>
    if (x == 'x' || x == 'X') && startsHex rest then
      andThen ('0' :: x :: (digits isHex rest).1, (digits isHex rest).2) hexFractionAndMore
    else if (x == 'b' || x == 'B') && rest.head?.any (fun c => c == '0' || c == '1') then
      let body := digits (fun c => c == '0' || c == '1') rest
      andThen ('0' :: x :: body.1, body.2) (oneOf isLongSuffix)
    else if (x == 'o' || x == 'O') && rest.head?.any isOctal then
      andThen ('0' :: x :: (digits isOctal rest).1, (digits isOctal rest).2) (oneOf isLongSuffix)
    else andThen (digits Char.isDigit ('0' :: x :: rest)) fractionAndMore
  | '.' :: rest =>
    andThen (andThen (Split.cons '.' (digits Char.isDigit rest)) (exponent isExponentMark))
      (oneOf isFloatSuffix)
  | cs => andThen (digits Char.isDigit cs) fractionAndMore

/-- Marks of several characters; a longer one stands before those that it starts with. -/
def longMarks : List (List Char) :=
  ["<<=", "...", "->", "::", "++", "--", "&&", "||", "==", "!=", "<=", "+=", "-=", "*=", "/=", "&=",
    "|=", "^=", "%=", "<<"].map String.toList

def shortMarks : List Char :=
  "()[],;.@=><!~?:+-*/&|^%".toList ++ ['\x7b', '\x7d']

/-- A mark, or a character that is no token. -/
def markOrStray (c : Char) (rest : List Char) : TokenKind × Split :=
  match longMarks.find? (·.isPrefixOf (c :: rest)) with
  | some m => (.mark, m, (c :: rest).drop m.length)
  | none => (if shortMarks.contains c then .mark else .stray, [c], rest)

/-- The token at the start of a text that starts with neither a blank nor a comment. -/
def token (c : Char) (rest : List Char) : TokenKind × Split :=
  let all := c :: rest
  if isWordStart c then (.word, Split.cons c (takeWhile isWordPart rest))
  else if c.isDigit || (c == '.' && rest.head?.any Char.isDigit) then (.number, number all)
  else if ['"', '"', '"'].isPrefixOf all then
    match blockTextEnd? (all.drop 3) with
    | some q => (.literal, ['"', '"', '"'] ++ q.split.1, q.split.2)
    | none => (.stray, all, [])
  else if c == '"' then
    match stringEnd? rest with
    | some q => (if q.sound then .literal else .stray, q.split.cons c)
    | none => (.stray, all, [])
  else if c == '\'' then
    match characterEnd? rest with
    | some s => if s.1.length == 1 then (.stray, [c], rest) else (.literal, s.cons c)
    | none => (.stray, [c], rest)
  else if ['/', '*'].isPrefixOf all then (.stray, all, [])
  else markOrStray c rest

/-- A comment at the start of a text. -/
def comment? : List Char → Option Split
  | '/' :: '/' :: rest =>
    let line := takeWhile (· != '\n') rest
    some ('/' :: '/' :: line.1, line.2)
  | '/' :: '*' :: rest => (blockEnd? rest).map fun s => (s.cons '*').cons '/'
  | _ => none

def lineBreaks (cs : List Char) : Nat := cs.count '\n'

/-- The tokens of a text from a line on. Every step reads at least one character, so the length of the
text is enough fuel. -/
def tokensFrom : Nat → Nat → List Comment → List Char → List Token
  | 0, _, _, _ => []
  | fuel + 1, line, comments, cs =>
    let gap := cs.takeWhile isSpace
    let line := line + lineBreaks gap
    match cs.dropWhile isSpace with
    | [] => []
    | c :: rest =>
      match comment? (c :: rest) with
      | some (text, after) =>
        tokensFrom fuel (line + lineBreaks text) (comments ++ [⟨gap, text, line⟩]) after
      | none =>
        let (kind, text, after) := token c rest
        ⟨kind, comments, gap, text, line⟩ :: tokensFrom fuel (line + lineBreaks text) [] after

/-- The tokens of a text; a leading byte order mark is no part of it. -/
def tokens (cs : List Char) : List Token :=
  let cs := match cs with
    | '\uFEFF' :: rest => rest
    | _ => cs
  tokensFrom (cs.length + 1) 1 [] cs

end ClassAtlas.Java.Lexer
