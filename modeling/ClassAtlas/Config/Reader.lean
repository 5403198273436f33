import ClassAtlas.Config.Scalar

/-! Reading configuration files in a part of YAML. Mappings and sequences are written in lines, where the
column tells what belongs to what, or in brackets; JSON is a special case. Texts may stand without quotes.
There are no texts in blocks, no anchors, no tags and no merge keys. -/

namespace ClassAtlas.Config

def isGap (c : Char) : Bool := c == ' ' || c == '\t'

def isGapOrBreak (c : Char) : Bool := isGap c || c == '\n'

/-! ## Between brackets -/

/-- Skips blanks, line breaks and comments. -/
def skipGap : Nat → List Char → List Char
  | 0, cs => cs
  | fuel + 1, cs =>
    match cs.dropWhile isGapOrBreak with
    | '#' :: rest => skipGap fuel (rest.dropWhile (· != '\n'))
    | rest => rest

/-- The character of an escape that is one letter. -/
def escaped? : Char → Option Char
  | '0' => some '\x00'
  | 'a' => some '\x07'
  | 'v' => some '\x0b'
  | 'e' => some '\x1b'
  | ' ' => some ' '
  | '\t' => some '\t'
  | 'N' => some '\u0085'
  | '_' => some '\u00A0'
  | 'L' => some '\u2028'
  | 'P' => some '\u2029'
  | c => Json.escaped? c

/-- So many hexadecimal digits at the start of a text. -/
def hexRun? (count : Nat) (cs : List Char) : Option (Nat × List Char) :=
  if (cs.take count).length = count then (inBase? 16 (cs.take count)).map (·, cs.drop count) else none

/-- The character of an escape behind its backslash; two halves of a character make one. -/
def escape? (cs : List Char) : Option (List Char × List Char) :=
  match cs with
  | 'x' :: rest => (hexRun? 2 rest).map fun (n, after) => ([Char.ofNat n], after)
  | 'U' :: rest => (hexRun? 8 rest).map fun (n, after) => ([Char.ofNat n], after)
  | 'u' :: rest => do
    let (n, after) ← hexRun? 4 rest
    match after with
    | '\\' :: 'u' :: more =>
      match (hexRun? 4 more).bind fun (low, last) => (Json.surrogatePair? n low).map (·, last) with
      | some (c, last) => return ([c], last)
      | none => return ([Char.ofNat n], after)
    | _ => return ([Char.ofNat n], after)
  | '\n' :: rest => some ([], rest.dropWhile isGap)
  | c :: rest => (escaped? c).map fun d => ([d], rest)
  | [] => none

/-- A line break in a quoted text and the blanks around it: one break is a space, more keep all but
the first. -/
def foldBreak (done cs : List Char) : List Char × List Char :=
  let run := cs.takeWhile isGapOrBreak
  let breaks := run.count '\n'
  let before := done.dropWhile isGap
  (if breaks ≤ 1 then ' ' :: before else List.replicate (breaks - 1) '\n' ++ before,
    cs.drop run.length)

/-- The rest of a text in double quotes. -/
def doubleQuoted? : Nat → List Char → List Char → Option (String × List Char)
  | 0, _, _ | _ + 1, _, [] => none
  | _ + 1, done, '"' :: rest => some (String.ofList done.reverse, rest)
  | fuel + 1, done, '\\' :: rest => do
    let (cs, after) ← escape? rest
    doubleQuoted? fuel (cs.reverse ++ done) after
  | fuel + 1, done, '\n' :: rest =>
    let (done, after) := foldBreak done ('\n' :: rest)
    doubleQuoted? fuel done after
  | fuel + 1, done, c :: rest => doubleQuoted? fuel (c :: done) rest

/-- The rest of a text in single quotes, where a quote is written twice. -/
def singleQuoted? : Nat → List Char → List Char → Option (String × List Char)
  | 0, _, _ | _ + 1, _, [] => none
  | fuel + 1, done, '\'' :: '\'' :: rest => singleQuoted? fuel ('\'' :: done) rest
  | _ + 1, done, '\'' :: rest => some (String.ofList done.reverse, rest)
  | fuel + 1, done, '\n' :: rest =>
    let (done, after) := foldBreak done ('\n' :: rest)
    singleQuoted? fuel done after
  | fuel + 1, done, c :: rest => singleQuoted? fuel (c :: done) rest

/-- A quoted text, if there is one at the start. -/
def quotedText? : List Char → Option (String × List Char)
  | '"' :: rest => doubleQuoted? (rest.length + 1) [] rest
  | '\'' :: rest => singleQuoted? (rest.length + 1) [] rest
  | _ => none

def isBracketOrComma (c : Char) : Bool :=
  c == ',' || c == '[' || c == ']' || c == '\x7b' || c == '\x7d'

/-- A text without quotes: it ends at a colon before a blank, at a comment, and between brackets also
at a comma or bracket. -/
def plainText (inBrackets : Bool) : List Char → List Char × List Char
  | [] => ([], [])
  | '\n' :: rest => ([], '\n' :: rest)
  | ':' :: rest =>
    let ends := match rest with
      | [] => true
      | c :: _ => isGapOrBreak c || (inBrackets && isBracketOrComma c)
    if ends then ([], ':' :: rest)
    else let (cs, after) := plainText inBrackets rest; (':' :: cs, after)
  | ' ' :: '#' :: rest => ([], ' ' :: '#' :: rest)
  | c :: rest =>
    if inBrackets && isBracketOrComma c then ([], c :: rest)
    else let (cs, after) := plainText inBrackets rest; (c :: cs, after)

/-- A text without the blanks behind it. -/
def trimmed (cs : List Char) : String :=
  String.ofList (cs.reverse.dropWhile isGapOrBreak).reverse

mutual
/-- A value between brackets, in quotes, or, inside brackets, without quotes. -/
def flowValue? : Nat → List Char → Option (Value × List Char)
  | 0, _ => none
  | fuel + 1, cs =>
    match cs with
    | '[' :: rest => (flowItems? fuel [] (skipGap rest.length rest)).map fun (vs, r) => (.list vs, r)
    | '\x7b' :: rest =>
      (flowFields? fuel [] (skipGap rest.length rest)).map fun (fs, r) => (.object fs, r)
    | _ =>
      match quotedText? cs with
      | some (s, rest) => some (.str s, rest)
      | none =>
        let (text, rest) := plainText true cs
        if cs.head? == some '"' || cs.head? == some '\'' then none
        else some (scalar (trimmed text), rest)

/-- Items up to the closing bracket. -/
def flowItems? : Nat → List Value → List Char → Option (List Value × List Char)
  | 0, _, _ => none
  | _ + 1, done, ']' :: rest => some (done.reverse, rest)
  | fuel + 1, done, cs => do
    let (v, rest) ← flowValue? fuel cs
    match skipGap rest.length rest with
    | ',' :: more => flowItems? fuel (v :: done) (skipGap more.length more)
    | ']' :: more => some ((v :: done).reverse, more)
    | _ => none

/-- Fields up to the closing brace. A key without a value has null. -/
def flowFields? : Nat → List (String × Value) → List Char → Option (List (String × Value) × List Char)
  | 0, _, _ => none
  | _ + 1, done, '\x7d' :: rest => some (done, rest)
  | fuel + 1, done, cs => do
    let (key, rest) ← match quotedText? cs with
      | some found => some found
      | none => let (text, rest) := plainText true cs; some (trimmed text, rest)
    let (v, rest) ← match skipGap rest.length rest with
      | ':' :: more =>
        match skipGap more.length more with
        | ',' :: after => some (.null, ',' :: after)
        | '\x7d' :: after => some (.null, '\x7d' :: after)
        | other => flowValue? fuel other
      | other => some (.null, other)
    let done := Value.setField key v done
    match skipGap rest.length rest with
    | ',' :: more => flowFields? fuel done (skipGap more.length more)
    | '\x7d' :: more => some (done, more)
    | _ => none
end

/-! ## In lines -/

/-- A line: how far it is indented, and what follows. -/
structure Line where
  indent : Nat
  text : List Char

def Line.ofString (s : String) : Line :=
  let cs := s.toList
  ⟨(cs.takeWhile (· == ' ')).length, cs.dropWhile (· == ' ')⟩

/-- Whether there is nothing but blanks and a comment. -/
def isVoidText (cs : List Char) : Bool :=
  match cs.dropWhile isGap with
  | [] => true
  | c :: _ => c == '#'

def skipVoid (lines : List Line) : List Line := lines.dropWhile fun l => isVoidText l.text

/-- What follows the dash of a sequence item. -/
def itemText? : List Char → Option (List Char)
  | ['-'] => some []
  | '-' :: c :: rest => if isGap c then some (c :: rest) else none
  | _ => none

/-- A key with what follows its colon. -/
def keyAndRest? (cs : List Char) : Option (String × List Char) :=
  let colon? (key : String) (rest : List Char) : Option (String × List Char) :=
    match rest with
    | [':'] => some (key, [])
    | ':' :: c :: more => if isGap c then some (key, c :: more) else none
    | _ => none
  match cs.head? with
  | some c =>
    if c == '"' || c == '\'' then
      (quotedText? cs).bind fun (key, rest) => colon? key (rest.dropWhile isGap)
    else if isBracketOrComma c then none
    else let (text, rest) := plainText false cs; colon? (trimmed text) rest
  | none => none

/-- The lines that continue an unquoted text. -/
def continuation (least : Nat) : List Line → List String × List Line
  | [] => ([], [])
  | l :: rest =>
    if least ≤ l.indent && !isVoidText l.text then
      let (more, after) := continuation least rest
      (trimmed (plainText false l.text).1 :: more, after)
    else ([], l :: rest)

/-- A value that starts on a line and may go on below. -/
def inlineValue? (least : Nat) (text : List Char) (rest : List Line) : Option (Value × List Line) :=
  match text.head? with
  | none => some (.null, rest)
  | some c =>
    if c == '"' || c == '\'' || c == '[' || c == '\x7b' then do
      let below := rest.flatMap fun l => '\n' :: (List.replicate l.indent ' ' ++ l.text)
      let all := text ++ below
      let (v, after) ← flowValue? (all.length + 1) all
      if isVoidText (after.takeWhile (· != '\n')) then
        return (v, rest.drop (rest.length - after.count '\n'))
      else none
    else if c == '&' || c == '*' || c == '!' || c == '|' || c == '>' || c == '%' || c == '@' then none
    else
      let (first, after) := plainText false text
      if isVoidText after then
        let (more, rest) := continuation least rest
        some (scalar (" ".intercalate (trimmed first :: more)), rest)
      else none

mutual
/-- A value in lines that are indented by `least` columns or more. -/
def blockValue? : Nat → Nat → List Line → Option (Value × List Line)
  | 0, _, _ => none
  | fuel + 1, least, lines =>
    match skipVoid lines with
    | [] => some (.null, [])
    | l :: rest =>
      if l.indent < least then some (.null, l :: rest)
      else if (itemText? l.text).isSome then
        (blockItems? fuel l.indent [] (l :: rest)).map fun (vs, r) => (.list vs, r)
      else if (keyAndRest? l.text).isSome then
        (blockFields? fuel l.indent [] (l :: rest)).map fun (fs, r) => (.object fs, r)
      else inlineValue? least l.text rest

/-- Items of a sequence at one column. -/
def blockItems? : Nat → Nat → List Value → List Line → Option (List Value × List Line)
  | 0, _, _, _ => none
  | fuel + 1, column, done, lines =>
    match skipVoid lines with
    | [] => some (done.reverse, [])
    | l :: rest =>
      match if l.indent = column then itemText? l.text else none with
      | none => some (done.reverse, l :: rest)
      | some after =>
        let text := after.dropWhile isGap
        let inside : Line := ⟨column + 1 + (after.length - text.length), text⟩
        let below := if isVoidText text then rest else inside :: rest
        match blockValue? fuel (column + 1) below with
        | none => none
        | some (v, lines) => blockItems? fuel column (v :: done) lines

/-- Fields of a mapping at one column. A sequence under a key may stand at the column of the key. -/
def blockFields? : Nat → Nat → List (String × Value) → List Line →
    Option (List (String × Value) × List Line)
  | 0, _, _, _ => none
  | fuel + 1, column, done, lines =>
    match skipVoid lines with
    | [] => some (done, [])
    | l :: rest =>
      match if l.indent = column then keyAndRest? l.text else none with
      | none => some (done, l :: rest)
      | some (key, after) =>
        let text := after.dropWhile isGap
        let found :=
          if isVoidText text then
            match skipVoid rest with
            | next :: more =>
              if next.indent = column && (itemText? next.text).isSome then
                (blockItems? fuel column [] (next :: more)).map fun (vs, r) => (Value.list vs, r)
              else blockValue? fuel (column + 1) (next :: more)
            | [] => some (.null, [])
          else inlineValue? (column + 1) text rest
        match found with
        | none => none
        | some (v, lines) => blockFields? fuel column (Value.setField key v done) lines
end

/-- Lines up to a mark for the end of the document. -/
def documentLines (lines : List String) : List String :=
  let body := match lines.dropWhile fun l => isVoidText l.toList with
    | "---" :: rest => rest
    | first :: rest =>
      if first.startsWith "--- " then String.ofList (first.toList.drop 4) :: rest else first :: rest
    | [] => []
  body.takeWhile (· != "...")

/-- The value of a whole file; an empty file is null. -/
def read? (text : String) : Option Value := do
  let lines := (documentLines (text.splitOn "\n")).map Line.ofString
  let (v, rest) ← blockValue? (text.length + lines.length + 2) 0 lines
  if (skipVoid rest).isEmpty then return v else none

end ClassAtlas.Config
