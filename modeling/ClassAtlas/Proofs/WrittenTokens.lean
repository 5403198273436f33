import ClassAtlas.Java.Lexer
import Mathlib.Data.List.Forall2

/-! # Tokens of written text

When text is put together from words, marks, blanks and comments, its tokens are the words and marks in
their order. What is read next never depends on what was read before, so this is shown from the end of
a text towards its start, one piece at a time. -/

namespace ClassAtlas.Java

/-- What stands before a token of written text. -/
inductive Lead where
  | nothing
  /-- Blanks at most. -/
  | blank
  /-- Anything that is no token. -/
  | any
deriving DecidableEq

/-- A token as it is written. -/
structure Lexeme where
  kind : TokenKind
  text : String
  lead : Lead
deriving DecidableEq

namespace Lexeme

def word (text : String) : Lexeme := ⟨.word, text, .blank⟩

def mark (text : String) : Lexeme := ⟨.mark, text, .blank⟩

/-- A mark directly behind the token before it. -/
def suffix (text : String) : Lexeme := ⟨.mark, text, .nothing⟩

/-- Whether the lexeme is this word or mark. -/
def is (l : Lexeme) (s : String) : Bool := (l.kind == .word || l.kind == .mark) && l.text == s

@[simp]
theorem lead_word (s : String) : (word s).lead = .blank := rfl

@[simp]
theorem lead_mark (s : String) : (mark s).lead = .blank := rfl

@[simp]
theorem lead_suffix (s : String) : (suffix s).lead = .nothing := rfl

end Lexeme

/-- A token is the one that was written. -/
structure Spells (t : Token) (l : Lexeme) : Prop where
  kind : t.kind = l.kind
  text : t.text = l.text.toList
  bare : l.lead ≠ .any → t.comments = []
  joined : l.lead = .nothing → t.gap = []

theorem Spells.uncommented {t : Token} {kind : TokenKind} {s : String}
    (h : Spells t ⟨kind, s, .blank⟩) : t.comments = [] := h.bare (by simp)

theorem Spells.is_eq {t : Token} {l : Lexeme} (h : Spells t l) (s : String) : t.is s = l.is s := by
  have htext : (t.text == s.toList) = (l.text == s) := by
    rw [h.text, Bool.eq_iff_iff, beq_iff_eq, beq_iff_eq, String.toList_inj]
  rw [Token.is, Lexeme.is, h.kind, htext]

namespace Lexer

/-! ## One step -/

section Steps

variable {fuel line : Nat} {comments : List Comment} {c : Char} {rest text after : List Char}
  {kind : TokenKind}

theorem tokensFrom_token (hspace : isSpace c = false) (hcomment : comment? (c :: rest) = none)
    (htoken : token c rest = (kind, text, after)) :
    tokensFrom (fuel + 1) line comments (c :: rest) =
      ⟨kind, comments, [], text, line⟩ :: tokensFrom fuel (line + lineBreaks text) [] after := by
  have htake : (c :: rest).takeWhile isSpace = [] := by simp [hspace]
  have hdrop : (c :: rest).dropWhile isSpace = c :: rest := by simp [hspace]
  rw [tokensFrom, htake, hdrop]
  simp only [hcomment, htoken]
  rfl

theorem tokensFrom_comment (hspace : isSpace c = false)
    (hcomment : comment? (c :: rest) = some (text, after)) :
    tokensFrom (fuel + 1) line comments (c :: rest) =
      tokensFrom fuel (line + lineBreaks text) (comments ++ [⟨[], text, line⟩]) after := by
  have htake : (c :: rest).takeWhile isSpace = [] := by simp [hspace]
  have hdrop : (c :: rest).dropWhile isSpace = c :: rest := by simp [hspace]
  rw [tokensFrom, htake, hdrop]
  simp only [hcomment]
  rfl

/-- Puts comments before the first of some tokens. -/
def addComments (comments : List Comment) : List Token → List Token
  | [] => []
  | t :: ts => { t with comments := comments ++ t.comments } :: ts

/-- The comments that were read go to the next token. -/
theorem tokensFrom_addComments (comments comments' : List Comment) (cs : List Char) :
    tokensFrom fuel line (comments ++ comments') cs =
      addComments comments (tokensFrom fuel line comments' cs) := by
  induction fuel generalizing line comments' cs with
  | zero => rfl
  | succ fuel ih =>
    unfold tokensFrom
    dsimp only
    split
    · rfl
    · split
      · rw [List.append_assoc]
        exact ih _ _
      · rfl

theorem tokensFrom_behind (comment : Comment) (cs : List Char) :
    tokensFrom fuel line [comment] cs = addComments [comment] (tokensFrom fuel line [] cs) :=
  tokensFrom_addComments [comment] [] cs

end Steps

/-! ## Texts and what they are read as -/

/-- However far into a text some characters stand, they are read as these lexemes. -/
def Reads (cs : List Char) (ls : List Lexeme) : Prop :=
  ∀ fuel line, cs.length < fuel → List.Forall₂ Spells (tokensFrom fuel line [] cs) ls

/-- The first lexeme may stand behind blanks. -/
def Apart (ls : List Lexeme) : Prop := ∀ l ∈ ls.head?, l.lead ≠ .nothing

/-- Some lexemes, of which the first may stand behind anything. -/
def freed : List Lexeme → List Lexeme
  | [] => []
  | l :: ls => { l with lead := .any } :: ls

section Reads

variable {c : Char} {cs rest text after : List Char} {kind : TokenKind} {l : Lexeme} {ls : List Lexeme}

theorem reads_nil : Reads [] [] := by
  intro fuel line hfuel
  obtain ⟨fuel, rfl⟩ : ∃ n, fuel = n + 1 := ⟨fuel - 1, by simp at hfuel; omega⟩
  exact .nil

theorem Reads.token (h : Reads after ls) (hspace : isSpace c = false)
    (hcomment : comment? (c :: rest) = none) (htoken : token c rest = (l.kind, l.text.toList, after))
    (hshort : after.length ≤ rest.length) : Reads (c :: rest) (l :: ls) := by
  intro fuel line hfuel
  obtain ⟨fuel, rfl⟩ : ∃ n, fuel = n + 1 := ⟨fuel - 1, by omega⟩
  rw [tokensFrom_token hspace hcomment htoken]
  refine .cons ⟨rfl, rfl, fun _ => rfl, fun _ => rfl⟩ (h fuel _ ?_)
  rw [List.length_cons] at hfuel
  omega

/-- Tokens with comments before them are those of the text without, apart from the first. -/
theorem spells_addComments {comments : List Comment} {ts : List Token}
    (h : List.Forall₂ Spells ts ls) :
    List.Forall₂ Spells (addComments comments ts) (freed ls) := by
  cases h with
  | nil => exact .nil
  | cons hl hls => exact .cons ⟨hl.kind, hl.text, (absurd rfl ·), fun hlead => by simp at hlead⟩ hls

/-- Comments show in the first token only, and all alike. -/
theorem spells_addComments_congr {comment comment' : Comment} {ts : List Token}
    (h : List.Forall₂ Spells (addComments [comment] ts) ls) :
    List.Forall₂ Spells (addComments [comment'] ts) ls := by
  cases ts with
  | nil => exact h
  | cons t ts =>
    cases h with
    | @cons _ l _ _ hl hls =>
      refine .cons ⟨hl.kind, hl.text, fun hlead => ?_, hl.joined⟩ hls
      exact absurd (hl.bare hlead) (List.cons_ne_nil _ _)

theorem Reads.blank (h : Reads cs ls) (hapart : Apart ls) (hc : isSpace c = true) :
    Reads (c :: cs) ls := by
  intro fuel line hfuel
  obtain ⟨fuel, rfl⟩ : ∃ n, fuel = n + 1 := ⟨fuel - 1, by omega⟩
  -- Without the blank the same tokens stand on the same lines if reading starts behind its line break.
  have htail := h (fuel + 1) (line + lineBreaks [c]) (by rw [List.length_cons] at hfuel; omega)
  have htake : (c :: cs).takeWhile isSpace = c :: cs.takeWhile isSpace := by simp [hc]
  have hdrop : (c :: cs).dropWhile isSpace = cs.dropWhile isSpace := by simp [hc]
  have hline : line + lineBreaks (c :: cs.takeWhile isSpace) =
      line + lineBreaks [c] + lineBreaks (cs.takeWhile isSpace) := by
    simp only [lineBreaks, List.count_cons, List.count_nil]
    omega
  rw [tokensFrom] at htail ⊢
  rw [htake, hdrop, hline]
  cases hrest : cs.dropWhile isSpace with
  | nil =>
    rw [hrest] at htail
    exact htail
  | cons c' rest =>
    rw [hrest] at htail
    dsimp only at htail ⊢
    cases hcomment : comment? (c' :: rest) with
    | none =>
      rw [hcomment] at htail
      cases htail with
      | @cons _ l _ ls hl hls =>
        exact .cons ⟨hl.kind, hl.text, hl.bare, fun hlead => absurd hlead (hapart l rfl)⟩ hls
    | some split =>
      rw [hcomment] at htail
      dsimp only at htail ⊢
      rw [List.nil_append, tokensFrom_behind] at htail ⊢
      exact spells_addComments_congr htail

theorem Reads.blanks {blanks : List Char} (h : Reads cs ls) (hapart : Apart ls)
    (hblanks : ∀ c ∈ blanks, isSpace c = true) : Reads (blanks ++ cs) ls := by
  induction blanks with
  | nil => exact h
  | cons c blanks ih =>
    obtain ⟨hc, hblanks⟩ := List.forall_mem_cons.mp hblanks
    exact (ih hblanks).blank hapart hc

theorem Reads.comment (h : Reads after ls) (hspace : isSpace c = false)
    (hcomment : comment? (c :: rest) = some (text, after)) (hshort : after.length ≤ rest.length) :
    Reads (c :: rest) (freed ls) := by
  intro fuel line hfuel
  obtain ⟨fuel, rfl⟩ : ∃ n, fuel = n + 1 := ⟨fuel - 1, by omega⟩
  rw [tokensFrom_comment hspace hcomment, List.nil_append, tokensFrom_behind]
  refine spells_addComments (h fuel _ ?_)
  rw [List.length_cons] at hfuel
  omega

end Reads

/-! ## Names -/

def isNameStart (c : Char) : Bool := c.isAlpha || c == '_' || c == '$'

def isNamePart (c : Char) : Bool := c.isAlphanum || c == '_' || c == '$'

/-- ASCII letters, digits, underscores and dollar signs, with no digit at the start. -/
def isWord : List Char → Bool
  | [] => false
  | c :: cs => isNameStart c && cs.all isNamePart

abbrev IsWord (s : String) : Prop := isWord s.toList = true

section Names

variable {c : Char} {rest : List Char}

theorem isWord_iff {cs : List Char} : isWord cs = true ↔
    ∃ c rest, cs = c :: rest ∧ isNameStart c = true ∧ ∀ c ∈ rest, isNamePart c = true := by
  cases cs with
  | nil => simp [isWord]
  | cons c rest =>
    simp only [isWord, Bool.and_eq_true, List.all_eq_true]
    constructor
    · exact fun h => ⟨c, rest, rfl, h⟩
    · intro hgiven
      obtain ⟨c', rest', heq, h⟩ := hgiven
      cases heq
      exact h

theorem toNat_of_isAlpha (h : c.isAlpha = true) :
    65 ≤ c.toNat ∧ c.toNat ≤ 90 ∨ 97 ≤ c.toNat ∧ c.toNat ≤ 122 := by
  have hcases : c.isUpper = true ∨ c.isLower = true := Bool.or_eq_true_iff.mp h
  rcases hcases with h | h
  · have hrange : 'A'.val ≤ c.val ∧ c.val ≤ 'Z'.val := of_decide_eq_true h
    exact .inl ⟨UInt32.le_iff_toNat_le.mp hrange.1, UInt32.le_iff_toNat_le.mp hrange.2⟩
  · have hrange : decide ('a'.val ≤ c.val) = true ∧ decide (c.val ≤ 'z'.val) = true :=
      Bool.and_eq_true_iff.mp h
    exact .inr ⟨UInt32.le_iff_toNat_le.mp (of_decide_eq_true hrange.1),
      UInt32.le_iff_toNat_le.mp (of_decide_eq_true hrange.2)⟩

theorem toNat_of_isDigit (h : c.isDigit = true) : 48 ≤ c.toNat ∧ c.toNat ≤ 57 :=
  Char.isDigit_iff_toNat.mp h

theorem toNat_lt_of_isAlphanum (h : c.isAlphanum = true) : c.toNat < 128 := by
  have hcases : c.isAlpha = true ∨ c.isDigit = true := Bool.or_eq_true_iff.mp h
  rcases hcases with h | h
  · have hletter := toNat_of_isAlpha h
    omega
  · have hdigit := toNat_of_isDigit h
    omega

theorem isNamePart_of_start (h : isNameStart c = true) : isNamePart c = true := by
  simp only [isNameStart, isNamePart, Char.isAlphanum, Bool.or_eq_true] at h ⊢
  rcases h with (h | h) | h <;> simp [h]

theorem isNamePart_of_mem {s : String} (h : IsWord s) : ∀ c ∈ s.toList, isNamePart c = true := by
  obtain ⟨c, rest, htext, hstart, hparts⟩ := isWord_iff.mp h
  rw [htext]
  exact List.forall_mem_cons.mpr ⟨isNamePart_of_start hstart, hparts⟩

theorem isDigit_of_start (h : isNameStart c = true) : c.isDigit = false := by
  simp only [isNameStart, Bool.or_eq_true, beq_iff_eq] at h
  rcases h with (h | rfl) | rfl
  · have hletter := toNat_of_isAlpha h
    refine Bool.eq_false_iff.mpr fun hdigit => ?_
    have hrange := toNat_of_isDigit hdigit
    omega
  · decide
  · decide

theorem isWordStart_of_name (h : isNameStart c = true) : isWordStart c = true := by
  simp only [isNameStart, isWordStart, Text.isIdentifierStart, Bool.or_eq_true] at h ⊢
  rcases h with (h | h) | h
  · have hlow := toNat_lt_of_isAlphanum (c := c) (by simp [Char.isAlphanum, h])
    simp [hlow, h]
  · simp [h]
  · simp [h]

theorem isWordPart_of_name (h : isNamePart c = true) : isWordPart c = true := by
  simp only [isNamePart, isWordPart, Text.isIdentifierContinue, Bool.or_eq_true] at h ⊢
  rcases h with (h | h) | h
  · simp [toNat_lt_of_isAlphanum h, h]
  · rw [beq_iff_eq.mp h]
    decide
  · simp [h]

/-- What is no part of a name is another character than any that is. -/
theorem ne_of_isNamePart {other : Char} (h : isNamePart c = true) (hother : isNamePart other = false) :
    c ≠ other := by
  rintro rfl
  rw [h] at hother
  cases hother

theorem isSpace_of_name (h : isNamePart c = true) : isSpace c = false := by
  have hspaces : [' ', '\t', '\n', '\r', '\x0b', '\x0c'].all (isNamePart · == false) = true := by
    decide
  have hne : ∀ other ∈ [' ', '\t', '\n', '\r', '\x0b', '\x0c'], c ≠ other := fun other hother =>
    ne_of_isNamePart h (beq_iff_eq.mp (List.all_eq_true.mp hspaces other hother))
  simpa [isSpace, and_assoc] using hne

theorem comment?_eq_none (h : c ≠ '/') : comment? (c :: rest) = none := by
  unfold comment?
  split
  · rename_i heq
    exact absurd (List.cons.inj heq).1 h
  · rename_i heq
    exact absurd (List.cons.inj heq).1 h
  · rfl

end Names

/-! ## Words, marks and comments -/

section Pieces

variable {s : String} {cs rest : List Char} {ls : List Lexeme} {lead : Lead}

/-- A word ends where no part of one follows. -/
def EndsWord (rest : List Char) : Prop := ∀ c ∈ rest.head?, isWordPart c = false

theorem Reads.word (h : Reads rest ls) (hs : IsWord s) (hend : EndsWord rest) :
    Reads (s.toList ++ rest) (⟨.word, s, lead⟩ :: ls) := by
  obtain ⟨c, cs, htext, hstart, hparts⟩ := isWord_iff.mp hs
  have hpart := isNamePart_of_start hstart
  rw [htext, List.cons_append]
  have hcs : ∀ c ∈ cs, isWordPart c = true := fun c hc => isWordPart_of_name (hparts c hc)
  have hsplit : takeWhile isWordPart (cs ++ rest) = (cs, rest) := by
    unfold takeWhile
    rw [List.takeWhile_append_of_pos hcs, List.dropWhile_append_of_pos hcs]
    cases rest with
    | nil => simp
    | cons c' rest => simp [hend c' rfl]
  refine h.token (isSpace_of_name hpart) (comment?_eq_none ?_) ?_ (by simp)
  · exact ne_of_isNamePart hpart (by decide)
  · unfold Lexer.token
    rw [if_pos (isWordStart_of_name hstart), hsplit]
    dsimp only
    rw [htext]
    rfl

/-- Marks that are not the start of any longer mark. -/
def plainMarks : List Char := ['(', ')', '[', ']', '\x7b', '\x7d', ';', ',']

theorem Reads.mark {c : Char} (h : Reads rest ls) (hc : c ∈ plainMarks) :
    Reads (c :: rest) (⟨.mark, String.singleton c, lead⟩ :: ls) := by
  have hplain : isSpace c = false ∧ comment? (c :: rest) = none ∧
      Lexer.token c rest = (.mark, [c], rest) := by
    unfold plainMarks at hc
    simp only [List.mem_cons, List.not_mem_nil, or_false] at hc
    rcases hc with rfl | rfl | rfl | rfl | rfl | rfl | rfl | rfl <;> exact ⟨rfl, rfl, rfl⟩
  obtain ⟨hspace, hcomment, htoken⟩ := hplain
  refine h.token hspace hcomment ?_ (Nat.le_refl _)
  rw [htoken]
  simp

/-- A point before a name. -/
theorem Reads.point {c : Char} (h : Reads (c :: rest) ls) (hc : isNameStart c = true) :
    Reads ('.' :: c :: rest) (⟨.mark, ".", lead⟩ :: ls) := by
  refine h.token rfl rfl ?_ (Nat.le_refl _)
  have hpoint : c ≠ '.' := ne_of_isNamePart (isNamePart_of_start hc) (by decide)
  have hdigit := isDigit_of_start hc
  have hlong : longMarks.find? (·.isPrefixOf ('.' :: c :: rest)) = none := by
    simp [longMarks, hpoint.symm]
  have hshort : '.' ∈ shortMarks := by decide
  have hstart : isWordStart '.' = false := by decide
  unfold Lexer.token markOrStray
  simp [hdigit, hlong, hshort, hstart]

/-- The number zero before a semicolon. -/
theorem Reads.zero (h : Reads (';' :: rest) ls) :
    Reads ('0' :: ';' :: rest) (⟨.number, "0", lead⟩ :: ls) := by
  refine h.token rfl rfl ?_ (Nat.le_refl _)
  simp only [show "0".toList = ['0'] by decide]
  rfl

/-- The character zero. -/
theorem Reads.nullCharacter (h : Reads rest ls) :
    Reads ('\'' :: '\\' :: '0' :: '\'' :: rest) (⟨.literal, "'\\0'", lead⟩ :: ls) := by
  refine h.token rfl rfl ?_ ?_
  · simp only [show "'\\0'".toList = ['\'', '\\', '0', '\''] by decide]
    rfl
  · simp only [List.length_cons]
    omega

theorem blockEnd?_append {body : List Char} (hbody : ∀ c ∈ body, c ≠ '/') :
    blockEnd? (body ++ '*' :: '/' :: rest) = some (body ++ ['*', '/'], rest) := by
  induction body with
  | nil => rfl
  | cons c body ih =>
    obtain ⟨-, hrest⟩ := List.forall_mem_cons.mp hbody
    -- A star in the comment is followed by something else than a slash.
    have hnext : ∀ rest', body ++ '*' :: '/' :: rest ≠ '/' :: rest' := by
      intro rest' heq
      cases body with
      | nil => exact absurd (List.cons.inj heq).1 (by decide)
      | cons c' body => exact hrest c' List.mem_cons_self (List.cons.inj heq).1
    rw [List.cons_append, blockEnd?.eq_2 _ _ fun rest' _ => hnext rest', ih hrest]
    rfl

/-- A comment without slashes inside. -/
theorem Reads.documented {body : List Char} (h : Reads rest ls) (hbody : ∀ c ∈ body, c ≠ '/') :
    Reads ('/' :: '*' :: (body ++ '*' :: '/' :: rest)) (freed ls) := by
  have hcomment : comment? ('/' :: '*' :: (body ++ '*' :: '/' :: rest)) =
      some ('/' :: '*' :: (body ++ ['*', '/']), rest) := by
    show (blockEnd? (body ++ '*' :: '/' :: rest)).map _ = _
    rw [blockEnd?_append hbody]
    rfl
  refine h.comment rfl hcomment ?_
  simp only [List.length_cons, List.length_append]
  omega

end Pieces

end Lexer

end ClassAtlas.Java
