/-! Tokens of Java source text. A token keeps the blanks and comments before it, so the tokens of a text
concatenate to the text itself, less what follows the last of them. -/

namespace ClassAtlas.Java

inductive TokenKind where
  /-- An identifier or a keyword; which of the two depends on where it stands. -/
  | word
  | number
  /-- A string, a text block or a character. -/
  | literal
  | mark
  | comment
  /-- Something that is no token of the language. -/
  | stray
deriving Repr, DecidableEq, Inhabited

/-- A comment with the blanks before it. -/
structure Comment where
  gap : List Char
  text : List Char
  line : Nat
deriving Repr, DecidableEq, Inhabited

structure Token where
  kind : TokenKind
  /-- The comments before the token, each with the blanks before it. -/
  comments : List Comment
  /-- The blanks directly before the token. -/
  gap : List Char
  text : List Char
  /-- The line on which the token starts, counted from one. -/
  line : Nat
deriving Repr, DecidableEq, Inhabited

namespace Token

/-- Whether the token is this word or mark. -/
def is (t : Token) (s : String) : Bool :=
  (t.kind == .word || t.kind == .mark) && t.text == s.toList

def isAnyOf (t : Token) (words : List String) : Bool := words.any t.is

/-- Whether the token follows the one before it without a gap. -/
def isAdjacent (t : Token) : Bool := t.gap.isEmpty && t.comments.isEmpty

/-- The comments, blanks and text of a token. -/
def full (t : Token) : List Char :=
  t.comments.flatMap (fun c => c.gap ++ c.text) ++ t.gap ++ t.text

/-- A comment as a token of its own. -/
def ofComment (c : Comment) : Token := ⟨.comment, [], c.gap, c.text, c.line⟩

end Token

end ClassAtlas.Java
