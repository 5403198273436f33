/-! Blank characters and the words between them. A text is a run of words apart from its blanks:
`wordsOf` keeps every other character, in order, and no word is empty. -/

namespace ClassAtlas.Text

/-- White space of all scripts: the ASCII blanks, the four information separators, next line and the
space separators. -/
def isBlank (c : Char) : Bool :=
  let n := c.toNat
  (9 ≤ n && n ≤ 13) || (0x1C ≤ n && n ≤ 0x20) || n == 0x85 || n == 0xA0 || n == 0x1680 ||
    (0x2000 ≤ n && n ≤ 0x200A) || n == 0x2028 || n == 0x2029 || n == 0x202F || n == 0x205F ||
    n == 0x3000

/-- Puts a word before others; an empty word is no word. -/
def consWord (word : List Char) (others : List (List Char)) : List (List Char) :=
  if word.isEmpty then others else word :: others

/-- The word that a text starts with, possibly empty, and the words after it. -/
def leadingWord : List Char → List Char × List (List Char)
  | [] => ([], [])
  | c :: rest =>
    let (word, others) := leadingWord rest
    if isBlank c then ([], consWord word others) else (c :: word, others)

/-- The maximal runs of characters that are not blank, in order. -/
def wordsOf (cs : List Char) : List (List Char) :=
  consWord (leadingWord cs).1 (leadingWord cs).2

theorem flatten_consWord (word : List Char) (others : List (List Char)) :
    (consWord word others).flatten = word ++ others.flatten := by
  unfold consWord
  split
  · next h => simp [List.isEmpty_iff.mp h]
  · simp

theorem flatten_wordsOf (cs : List Char) :
    (wordsOf cs).flatten = cs.filter fun c => !isBlank c := by
  rw [wordsOf, flatten_consWord]
  induction cs with
  | nil => rfl
  | cons c rest ih =>
    simp only [leadingWord]
    split
    · next h => simp [h, flatten_consWord, ih]
    · next h => simp [h, ih]

/-- The text without the blanks at its two ends. -/
def stripChars (cs : List Char) : List Char :=
  ((cs.dropWhile isBlank).reverse.dropWhile isBlank).reverse

/-- The text without the blanks at its two ends. -/
def strip (s : String) : String := String.ofList (stripChars s.toList)

/-- The words of a text with one space between neighbours. -/
def joinedWords (cs : List Char) : List Char := [' '].intercalate (wordsOf cs)

end ClassAtlas.Text
