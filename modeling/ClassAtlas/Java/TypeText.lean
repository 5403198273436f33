import ClassAtlas.Text.Blank

/-! The canonical text of a type. Blanks are kept only where they separate two words or follow a comma:
none stand around an opening angle bracket, before a closing one, inside or before an empty pair of
square brackets, or before the three points of a variable parameter. -/

namespace ClassAtlas.Java.TypeText

open ClassAtlas.Text (isBlank)

/-- Takes out the blanks that stand directly before a text for which `stop` holds. -/
def closeBefore (stop : List Char → Bool) : List Char → List Char
  | [] => []
  | c :: rest =>
    if isBlank c && stop (rest.dropWhile isBlank) then closeBefore stop rest
    else c :: closeBefore stop rest

/-- Takes out the blanks that stand directly after a character for which `start` holds. -/
def closeAfter (start : Char → Bool) : Bool → List Char → List Char
  | _, [] => []
  | after, c :: rest =>
    if after && isBlank c then closeAfter start true rest
    else c :: closeAfter start (start c) rest

/-- Puts one space after every comma. -/
def spaceAfterComma (cs : List Char) : List Char :=
  cs.flatMap fun c => if c == ',' then [',', ' '] else [c]

/-- Takes out the blanks between an opening square bracket and the closing one. -/
def closePairs : Bool → List Char → List Char
  | _, [] => []
  | opened, c :: rest =>
    if opened && isBlank c && (rest.dropWhile isBlank).head? == some ']' then closePairs true rest
    else c :: closePairs (c == '[') rest

def startsWith (c : Char) (cs : List Char) : Bool := cs.head? == some c

/-- No blanks before or after an opening angle bracket. -/
def tightOpen (cs : List Char) : List Char :=
  closeAfter (· == '<') false (closeBefore (startsWith '<') cs)

/-- No blanks before a closing angle bracket. -/
def tightClose (cs : List Char) : List Char := closeBefore (startsWith '>') cs

/-- No blanks before a comma and one space after it. -/
def tightComma (cs : List Char) : List Char :=
  spaceAfterComma (closeAfter (· == ',') false (closeBefore (startsWith ',') cs))

/-- No blanks inside or before an empty pair of square brackets. -/
def tightPairs (cs : List Char) : List Char :=
  closeBefore (['[', ']'].isPrefixOf ·) (closePairs false cs)

/-- No blanks before three points. -/
def tightPoints (cs : List Char) : List Char := closeBefore (['.', '.', '.'].isPrefixOf ·) cs

def normalizeChars (cs : List Char) : List Char :=
  tightPoints (tightPairs (tightComma (tightClose (tightOpen (Text.joinedWords cs)))))

/-- The canonical text of a type. -/
def normalize (s : String) : String := String.ofList (normalizeChars s.toList)

end ClassAtlas.Java.TypeText
