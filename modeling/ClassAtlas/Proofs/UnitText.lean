import ClassAtlas.Java.Unit
import ClassAtlas.Java.Declaration
import ClassAtlas.Proofs.WrittenTokens

/-! # The text of a unit

A unit of a classifier whose names are names and whose types are arrays of basic types is made of these
words and marks: package line, header, constants, and for each member its signature and its stub. All
else in it is blanks and comments. -/

namespace ClassAtlas.Java

open Lexer

/-! ## Names and types -/

/-- Words that the language keeps for itself. -/
def reservedWords : List String := [
  "abstract", "assert", "boolean", "break", "byte", "case", "catch", "char", "class", "const",
  "continue", "default", "do", "double", "else", "enum", "extends", "final", "finally", "float", "for",
  "goto", "if", "implements", "import", "instanceof", "int", "interface", "long", "native", "new",
  "package", "private", "protected", "public", "return", "short", "static", "strictfp", "super",
  "switch", "synchronized", "this", "throw", "throws", "transient", "try", "void", "volatile", "while",
  "true", "false", "null", "_"]

/-- Words that mean something in some places only. -/
def contextualWords : List String := [
  "exports", "module", "non-sealed", "open", "opens", "permits", "provides", "record", "requires",
  "sealed", "to", "transitive", "uses", "var", "when", "with", "yield"]

/-- An identifier that is no word of the language. -/
abbrev IsName (s : String) : Prop := IsWord s ∧ s ∉ reservedWords ++ contextualWords

/-- One of some words with any number of pairs of square brackets behind it. -/
def IsArrayOf (bases : List String) (s : String) : Prop :=
  ∃ base ∈ bases, ∃ n, s.toList = base.toList ++ (List.replicate n ['[', ']']).flatten

structure RegularField (f : Field) : Prop where
  name : IsName f.name
  typeName : IsArrayOf primitives f.typeName
  defaultValue : f.defaultValue = none

structure RegularParameter (p : Parameter) : Prop where
  name : IsName p.name
  typeName : IsArrayOf primitives p.typeName
  defaultValue : p.defaultValue = none

structure RegularOperation (op : Operation) : Prop where
  name : IsName op.name
  returnType : ∀ t ∈ op.returnType, IsArrayOf primitives t
  parameters : ∀ p ∈ op.parameters, RegularParameter p

/-- A classifier with names for names, of basic types, without default values, and with no operation of
its own name. -/
structure Regular (c : Classifier) : Prop where
  name : IsName c.name
  namespaceName : ∃ segments : List String, (∀ s ∈ segments, IsName s) ∧
    c.namespaceName = ".".intercalate segments
  fields : ∀ f ∈ c.fields, RegularField f
  operations : ∀ op ∈ c.operations, RegularOperation op ∧ op.name ≠ c.name
  literals : c.kind = .enumeration → ∀ literal ∈ c.literals, IsName literal

/-- A classifier's edges lead to classifiers with names for names, in namespaces made of such. -/
def RegularTargets (c : Classifier) (relationships : List Relationship) : Prop :=
  ∀ r ∈ relationships, r.source.key = c.key → IsName r.target.name ∧
    ∃ segments : List String, (∀ s ∈ segments, IsName s) ∧
      r.target.namespaceName = ".".intercalate segments

/-! ## Lexemes -/

def typeBase (s : String) : String := String.ofList (s.toList.takeWhile (· != '['))

def typeDepth (s : String) : Nat := s.toList.count '['

def pairLexemes (n : Nat) : List Lexeme := (List.replicate n [.suffix "[", .suffix "]"]).flatten

def typeLexemes (s : String) : List Lexeme := .word (typeBase s) :: pairLexemes (typeDepth s)

/-- Names with points between them. -/
def dottedLexemes : List String → List Lexeme
  | [] => []
  | s :: rest => .word s :: rest.flatMap fun r => [.suffix ".", ⟨.word, r, .nothing⟩]

def packageLexemes (segments : List String) : List Lexeme :=
  if segments.isEmpty then [] else .word "package" :: dottedLexemes segments ++ [.mark ";"]

def importLexemes (segments : List String) : List Lexeme :=
  .word "import" :: dottedLexemes segments ++ [.mark ";"]

/-- Lists of lexemes with commas between them. -/
def listed (items : List (List Lexeme)) : List Lexeme := [Lexeme.mark ","].intercalate items

def fieldWords (f : Field) : List String :=
  [f.visibility.keyword, wordIf f.isStatic "static", wordIf f.isFinal "final"].filter (!·.isEmpty)

def fieldLexemes (f : Field) : List Lexeme :=
  (fieldWords f).map .word ++ typeLexemes f.typeName ++ [.word f.name, .mark ";"]

def operationWords (op : Operation) : List String :=
  [op.visibility.keyword, wordIf op.isStatic "static", wordIf op.isAbstract "abstract",
    wordIf op.isFinal "final"].filter (!·.isEmpty)

def parameterLexemes (p : Parameter) : List Lexeme := typeLexemes p.typeName ++ [.word p.name]

def signatureLexemes (op : Operation) : List Lexeme :=
  (operationWords op).map .word ++ typeLexemes (returnWord op) ++ [.word op.name, .mark "("] ++
    listed (op.parameters.map parameterLexemes) ++ [.mark ")"]

/-- What a stub gives back. -/
def stubLexeme (returnType : String) : Lexeme :=
  if returnType = "boolean" then .word "false"
  else if numericPrimitives.contains returnType then ⟨.number, "0", .blank⟩
  else if returnType = "char" then ⟨.literal, "'\\0'", .blank⟩
  else .word "null"

/-- Whether an operation is written without a body. -/
def isBodiless (owner : ClassifierKind) (op : Operation) : Bool := owner == .interface || op.isAbstract

def bodyLexemes (owner : ClassifierKind) (op : Operation) : List Lexeme :=
  if isBodiless owner op then [.mark ";"]
  else [.mark "\x7b"] ++
    (if returnWord op = voidWord then []
      else [.word "return", stubLexeme (returnWord op), .mark ";"]) ++ [.mark "\x7d"]

def operationLexemes (owner : ClassifierKind) (op : Operation) : List Lexeme :=
  signatureLexemes op ++ bodyLexemes owner op

def hasMembers (c : Classifier) : Bool := !c.fields.isEmpty || !c.operations.isEmpty

def constantLexemes (c : Classifier) : List Lexeme :=
  if c.kind = .enumeration then
    listed (c.literals.map fun literal => [.word literal]) ++ if hasMembers c then [.mark ";"] else []
  else []

def headerWords (c : Classifier) : List String :=
  match c.kind with
  | .interface => ["public", "interface"]
  | .enumeration => ["public", "enum"]
  | .«class» => if c.isAbstract then ["public", "abstract", "class"] else ["public", "class"]

/-- The clauses of a header: a word, and the names behind it, which may be none. -/
def headerClauses (c : Classifier) (relationships : List Relationship) :
    List (String × List String) :=
  let implemented := ("implements", supertypeNames c relationships [.implementation])
  match c.kind with
  | .interface => [("extends", supertypeNames c relationships [.inheritance, .implementation])]
  | .enumeration => [implemented]
  | .«class» => [("extends", (supertypeNames c relationships [.inheritance]).take 1), implemented]

def clauseLexemes (clause : String × List String) : List Lexeme :=
  if clause.2.isEmpty then [] else .word clause.1 :: listed (clause.2.map fun name => [.word name])

def headerLexemes (c : Classifier) (relationships : List Relationship) : List Lexeme :=
  (headerWords c).map .word ++
    .word c.name :: (headerClauses c relationships).flatMap clauseLexemes ++ [.mark "\x7b"]

/-- The members of a unit, each behind a comment. -/
def memberLexemes (c : Classifier) : List (List Lexeme) :=
  c.fields.map (fun f => freed (fieldLexemes f)) ++
    c.operations.map fun op => freed (operationLexemes c.kind op)

def unitLexemes (segments : List String) (imported : List (List String)) (c : Classifier)
    (relationships : List Relationship) : List Lexeme :=
  packageLexemes segments ++ imported.flatMap importLexemes ++ freed (headerLexemes c relationships) ++
    constantLexemes c ++ (memberLexemes c).flatten ++ [.mark "\x7d"]

/-! ## Pieces of a line -/

/-- A text that is read as these lexemes, also behind a blank. -/
structure Opens (cs : List Char) (ls : List Lexeme) : Prop where
  reads : Reads cs ls
  apart : Apart ls

section Pieces

variable {cs : List Char} {ls : List Lexeme} {s : String}

theorem isWord_ne_nil (h : IsWord s) : s.toList ≠ [] := by
  obtain ⟨c, cs, htext, -, -⟩ := isWord_iff.mp h
  rw [htext]
  exact List.cons_ne_nil _ _

/-- A character that is no part of a word ends it. -/
theorem endsWord_cons {c : Char} (h : isWordPart c = false) : EndsWord (c :: cs) := by
  intro c' hc'
  cases hc'
  exact h

theorem apart_cons {l : Lexeme} (h : l.lead ≠ .nothing) : Apart (l :: ls) := by
  intro l' hl'
  cases hl'
  exact h

theorem opens_nil : Opens [] [] := ⟨reads_nil, by simp [Apart]⟩

theorem Opens.space (h : Opens cs ls) : Opens (' ' :: cs) ls := ⟨h.reads.blank h.apart rfl, h.apart⟩

theorem Opens.newline (h : Opens cs ls) : Opens ('\n' :: cs) ls :=
  ⟨h.reads.blank h.apart rfl, h.apart⟩

theorem Opens.mark {c : Char} (h : Opens cs ls) (hc : c ∈ plainMarks) :
    Opens (c :: cs) (.mark (String.singleton c) :: ls) :=
  ⟨h.reads.mark hc, apart_cons (by simp)⟩

theorem Opens.word (h : Opens cs ls) (hs : IsWord s) (hend : EndsWord cs) :
    Opens (s.toList ++ cs) (.word s :: ls) :=
  ⟨h.reads.word hs hend, apart_cons (by simp)⟩

/-- Words with a blank behind each. -/
theorem Opens.words {words : List String} (h : Opens cs ls) (hwords : ∀ w ∈ words, IsWord w) :
    Opens (words.flatMap (fun w => w.toList ++ [' ']) ++ cs) (words.map .word ++ ls) := by
  induction words with
  | nil => exact h
  | cons w words ih =>
    obtain ⟨hw, hwords⟩ := List.forall_mem_cons.mp hwords
    rw [List.flatMap_cons, List.append_assoc, List.append_assoc]
    exact (ih hwords).space.word hw (endsWord_cons rfl)

theorem Lexer.Reads.pairs {n : Nat} (h : Reads cs ls) :
    Reads ((List.replicate n ['[', ']']).flatten ++ cs) (pairLexemes n ++ ls) := by
  induction n with
  | zero => exact h
  | succ n ih =>
    have hclose : Reads (']' :: ((List.replicate n ['[', ']']).flatten ++ cs))
        (.suffix "]" :: (pairLexemes n ++ ls)) := ih.mark (by decide)
    exact hclose.mark (by decide)

theorem endsWord_pairs {n : Nat} (h : EndsWord cs) :
    EndsWord ((List.replicate n ['[', ']']).flatten ++ cs) := by
  cases n with
  | zero => exact h
  | succ n => exact endsWord_cons rfl

theorem typeBase_eq {base : String} {n : Nat} (hbase : base ∈ Phrase.basicTypes)
    (hs : s.toList = base.toList ++ (List.replicate n ['[', ']']).flatten) : typeBase s = base := by
  have hall : ∀ base ∈ Phrase.basicTypes, base.toList.all (· != '[') = true := by decide
  have hletters := List.all_eq_true.mp (hall base hbase)
  have hpairs : (List.replicate n ['[', ']']).flatten.takeWhile (· != '[') = [] := by
    cases n <;> rfl
  rw [typeBase, hs, List.takeWhile_append_of_pos hletters, hpairs, List.append_nil,
    String.ofList_toList]

theorem typeDepth_eq {base : String} {n : Nat} (hbase : base ∈ Phrase.basicTypes)
    (hs : s.toList = base.toList ++ (List.replicate n ['[', ']']).flatten) : typeDepth s = n := by
  have hletters : base.toList.count '[' = 0 := by
    clear hs
    revert base
    decide
  rw [typeDepth, hs, List.count_append, hletters, Nat.zero_add]
  clear hs
  induction n with
  | zero => rfl
  | succ n ih =>
    rw [List.replicate_succ, List.flatten_cons, List.count_append, ih]
    simp
    omega

theorem isWord_basicType {base : String} (h : base ∈ Phrase.basicTypes) : IsWord base := by
  revert base
  decide

theorem Opens.type (h : Opens cs ls) (hs : IsArrayOf Phrase.basicTypes s) (hend : EndsWord cs) :
    Opens (s.toList ++ cs) (typeLexemes s ++ ls) := by
  obtain ⟨base, hbase, n, hs⟩ := hs
  rw [typeLexemes, typeBase_eq hbase hs, typeDepth_eq hbase hs, hs, List.append_assoc,
    List.cons_append]
  exact ⟨h.reads.pairs.word (isWord_basicType hbase) (endsWord_pairs hend), apart_cons (by simp)⟩

/-- Pieces with a comma and a blank between them. -/
theorem Opens.items {α : Type} {xs : List α} (text : α → String) (lexemes : α → List Lexeme)
    (h : Opens cs ls) (hend : EndsWord cs)
    (hitem : ∀ x ∈ xs, ∀ {cs ls}, Opens cs ls → EndsWord cs →
      Opens ((text x).toList ++ cs) (lexemes x ++ ls)) :
    Opens ((", ".intercalate (xs.map text)).toList ++ cs) (listed (xs.map lexemes) ++ ls) := by
  induction xs with
  | nil => exact h
  | cons x xs ih =>
    obtain ⟨hx, hxs⟩ := List.forall_mem_cons.mp hitem
    cases xs with
    | nil => simpa [listed] using hx h hend
    | cons x' xs =>
      have hrest : Opens (',' :: ' ' :: ((", ".intercalate ((x' :: xs).map text)).toList ++ cs))
          (.mark "," :: (listed ((x' :: xs).map lexemes) ++ ls)) :=
        (ih hxs).space.mark (by decide)
      simpa [listed] using hx hrest (endsWord_cons rfl)

/-- The words before the last of a phrase have a blank behind each. -/
theorem toList_phrase (words : List String) {last : String} (h : last.isEmpty = false) :
    (phrase (words ++ [last])).toList =
      (words.filter (!·.isEmpty)).flatMap (fun w => w.toList ++ [' ']) ++ last.toList := by
  have hlast : [last].filter (!·.isEmpty) = [last] := by simp [h]
  rw [phrase, List.filter_append, hlast]
  induction words.filter (!·.isEmpty) with
  | nil => rw [List.nil_append, String.intercalate_singleton, List.flatMap_nil, List.nil_append]
  | cons w ws ih =>
    obtain ⟨next, rest, hnext⟩ : ∃ next rest, ws ++ [last] = next :: rest :=
      List.exists_cons_of_ne_nil (by simp)
    rw [List.cons_append, hnext, String.intercalate_cons_cons, ← hnext, String.toList_append,
      String.toList_append, ih]
    simp

end Pieces

/-! ## Lines -/

/-- The characters of lines, each with its line break. -/
def charsOf (lines : List String) : List Char := lines.flatMap fun line => line.toList ++ ['\n']

theorem toList_lines {lines : List String} (h : lines ≠ []) :
    ("\n".intercalate lines ++ "\n").toList = charsOf lines := by
  induction lines with
  | nil => exact absurd rfl h
  | cons line rest ih =>
    cases rest with
    | nil => simp [charsOf]
    | cons next rest =>
      have ih := ih (List.cons_ne_nil _ _)
      rw [String.toList_append] at ih ⊢
      rw [String.intercalate_cons_cons, String.toList_append, String.toList_append, List.append_assoc,
        ih]
      simp [charsOf]

/-- Lines that are read as these lexemes, whatever lines follow. -/
def Writes (lines : List String) (ls : List Lexeme) : Prop :=
  ∀ ⦃cs more⦄, Opens cs more → Opens (charsOf lines ++ cs) (ls ++ more)

/-- Indentation is made of blanks. -/
def IsIndent (indent : String) : Prop := ∀ c ∈ indent.toList, isSpace c = true

instance (indent : String) : Decidable (IsIndent indent) :=
  List.decidableBAll (fun c => isSpace c = true) indent.toList

/-- Characters that may stand in a comment. -/
def NoSlash (s : String) : Prop := ∀ c ∈ s.toList, c ≠ '/'

instance (s : String) : Decidable (NoSlash s) := List.decidableBAll (fun c => c ≠ '/') s.toList

section Lines

variable {lines lines' : List String} {line indent : String} {cs : List Char}
  {ls ls' more : List Lexeme}

theorem writes_nil : Writes [] [] := fun _ _ h => h

theorem Writes.append (h : Writes lines ls) (h' : Writes lines' ls') :
    Writes (lines ++ lines') (ls ++ ls') := by
  intro cs more hmore
  rw [charsOf, List.flatMap_append, List.append_assoc, List.append_assoc]
  exact h (h' hmore)

theorem writes_flatMap {α : Type} {xs : List α} {f : α → List String} {g : α → List Lexeme}
    (h : ∀ x ∈ xs, Writes (f x) (g x)) : Writes (xs.flatMap f) (xs.map g).flatten := by
  induction xs with
  | nil => exact writes_nil
  | cons x xs ih =>
    obtain ⟨hx, hxs⟩ := List.forall_mem_cons.mp h
    exact hx.append (ih hxs)

theorem writes_blank : Writes [""] [] := fun _ _ h => h.newline

/-- A line is what is read before its line break. -/
theorem writes_line (h : ∀ {cs more}, Opens cs more → EndsWord cs →
    Opens (line.toList ++ cs) (ls ++ more)) : Writes [line] ls := by
  intro cs more hmore
  have hchars : charsOf [line] ++ cs = line.toList ++ '\n' :: cs := by simp [charsOf]
  rw [hchars]
  exact h hmore.newline (endsWord_cons rfl)

theorem Opens.indented (h : Opens cs ls) (hindent : IsIndent indent) :
    Opens (indent.toList ++ cs) ls :=
  ⟨h.reads.blanks h.apart hindent, h.apart⟩

theorem noSlash_append {a b : String} (ha : NoSlash a) (hb : NoSlash b) : NoSlash (a ++ b) := by
  intro c hc
  rw [String.toList_append] at hc
  exact (List.mem_append.mp hc).elim (ha c) (hb c)

theorem noSlash_word {s : String} (h : IsWord s) : NoSlash s :=
  fun c hc => ne_of_isNamePart (isNamePart_of_mem h c hc) (by decide)

theorem noSlash_charsOf (h : ∀ line ∈ lines, NoSlash line) : ∀ c ∈ charsOf lines, c ≠ '/' := by
  intro c hc
  obtain ⟨line, hline, hc⟩ := List.mem_flatMap.mp hc
  rcases List.mem_append.mp hc with hc | hc
  · exact h line hline c hc
  · rw [List.mem_singleton.mp hc]
    decide

theorem noSlash_indent (h : IsIndent indent) : NoSlash indent := by
  rintro c hc rfl
  exact absurd (h _ hc) (by decide)

/-- Documented lines are read as they are without, but for what stands before the first lexeme. -/
theorem Writes.documented {summary : String} {tags : List String} (h : Writes lines ls)
    (hls : ls ≠ []) (hindent : IsIndent indent) (hsummary : NoSlash summary)
    (htags : ∀ tag ∈ tags, NoSlash tag) :
    Writes (documentation indent summary tags ++ lines) (freed ls) := by
  intro cs more hmore
  obtain ⟨l, ls, rfl⟩ := List.exists_cons_of_ne_nil hls
  have hnext := (h hmore).newline
  have hstar : ∀ {text}, NoSlash text → NoSlash (indent ++ " * " ++ text) := fun htext =>
    noSlash_append (noSlash_append (noSlash_indent hindent) (by decide)) htext
  -- What stands between the marks that open and close the comment.
  let inner := (indent ++ " * " ++ summary) :: tags.map fun tag => indent ++ " * " ++ tag
  let body := '*' :: '\n' :: (charsOf inner ++ indent.toList ++ [' '])
  have hinner : ∀ line ∈ inner, NoSlash line := by
    refine List.forall_mem_cons.mpr ⟨hstar hsummary, fun line hline => ?_⟩
    obtain ⟨tag, htag, rfl⟩ := List.mem_map.mp hline
    exact hstar (htags tag htag)
  have hbody : ∀ c ∈ body, c ≠ '/' := by
    simp only [body, List.forall_mem_cons, List.forall_mem_append]
    refine ⟨by decide, by decide, ⟨noSlash_charsOf hinner, noSlash_indent hindent⟩, by decide, List.forall_mem_nil _⟩
  have hchars : charsOf (documentation indent summary tags ++ lines) ++ cs =
      indent.toList ++ '/' :: '*' :: (body ++ '*' :: '/' :: '\n' :: (charsOf lines ++ cs)) := by
    simp [charsOf, documentation, body, inner]
  have hfreed : Apart (freed (l :: ls) ++ more) := apart_cons (by simp)
  rw [hchars]
  exact (Opens.mk (hnext.reads.documented hbody) hfreed).indented hindent

end Lines

/-! ## Members -/

section Members

variable {cs : List Char} {ls : List Lexeme} {indent : String} {f : Field} {op : Operation}

theorem isWord_modifier {w : String} (h : w ∈ Declaration.modifierWords) : IsWord w := by
  revert w
  decide

/-- Modifiers are what is left of some words when the empty ones are left out. -/
theorem mem_modifierWords {words : List String} (h : ∀ w ∈ words, w = "" ∨ w ∈ Declaration.modifierWords) :
    ∀ w ∈ words.filter (!·.isEmpty), w ∈ Declaration.modifierWords := by
  intro w hw
  obtain ⟨hmem, hne⟩ := List.mem_filter.mp hw
  rcases h w hmem with rfl | hw
  · cases hne
  · exact hw

theorem keyword_modifier (v : Visibility) : v.keyword = "" ∨ v.keyword ∈ Declaration.modifierWords := by
  cases v <;> decide

theorem wordIf_modifier {word : String} (condition : Bool) (h : word ∈ Declaration.modifierWords) :
    wordIf condition word = "" ∨ wordIf condition word ∈ Declaration.modifierWords := by
  cases condition with
  | true => exact .inr h
  | false => exact .inl rfl

theorem fieldWords_modifiers (f : Field) : ∀ w ∈ fieldWords f, w ∈ Declaration.modifierWords := by
  refine mem_modifierWords ?_
  simp only [List.forall_mem_cons]
  exact ⟨keyword_modifier _, wordIf_modifier _ (by decide), wordIf_modifier _ (by decide), List.forall_mem_nil _⟩

theorem operationWords_modifiers (op : Operation) :
    ∀ w ∈ operationWords op, w ∈ Declaration.modifierWords := by
  refine mem_modifierWords ?_
  simp only [List.forall_mem_cons]
  exact ⟨keyword_modifier _, wordIf_modifier _ (by decide), wordIf_modifier _ (by decide),
    wordIf_modifier _ (by decide), List.forall_mem_nil _⟩

theorem primitive_basic {base : String} (h : base ∈ primitives) : base ∈ Phrase.basicTypes := by
  revert base
  decide

theorem IsArrayOf.basic {s : String} (h : IsArrayOf primitives s) : IsArrayOf Phrase.basicTypes s := by
  obtain ⟨base, hbase, n, hs⟩ := h
  exact ⟨base, primitive_basic hbase, n, hs⟩

theorem isEmpty_of_toList {s : String} (h : s.toList ≠ []) : s.isEmpty = false := by
  rw [String.isEmpty_eq_false_iff]
  rintro rfl
  exact h (by decide)

theorem isEmpty_word {s : String} (h : IsWord s) : s.isEmpty = false :=
  isEmpty_of_toList (isWord_ne_nil h)

theorem IsArrayOf.isEmpty {s : String} (h : IsArrayOf Phrase.basicTypes s) : s.isEmpty = false := by
  obtain ⟨base, hbase, n, hs⟩ := h
  refine isEmpty_of_toList ?_
  rw [hs]
  exact List.append_ne_nil_of_left_ne_nil (isWord_ne_nil (isWord_basicType hbase)) _

theorem isArrayOf_returnWord (h : RegularOperation op) :
    IsArrayOf Phrase.basicTypes (returnWord op) := by
  have hvoid : IsArrayOf Phrase.basicTypes voidWord := ⟨"void", by decide, 0, by decide⟩
  unfold returnWord
  cases hreturn : op.returnType with
  | none => exact hvoid
  | some t =>
    have ht := (h.returnType t hreturn).basic
    show IsArrayOf Phrase.basicTypes (if t.isEmpty then voidWord else t)
    rw [ht.isEmpty]
    exact ht

/-- Modifiers with a type and a name behind them. -/
theorem toList_typedPhrase (words : List String) {typeName last : String}
    (htype : IsArrayOf Phrase.basicTypes typeName) (hlast : last.isEmpty = false) :
    (phrase (words ++ [typeName, last])).toList =
      (words.filter (!·.isEmpty)).flatMap (fun w => w.toList ++ [' ']) ++
        (typeName.toList ++ ' ' :: last.toList) := by
  have hfilter : [typeName].filter (!·.isEmpty) = [typeName] := by simp [htype.isEmpty]
  have hphrase := toList_phrase (words ++ [typeName]) hlast
  rw [List.filter_append, hfilter] at hphrase
  simpa using hphrase

theorem writes_field (hf : RegularField f) (hindent : IsIndent indent) :
    Writes (fieldLines f indent) (freed (fieldLexemes f)) := by
  have hwords : ∀ w ∈ fieldWords f, IsWord w := fun w hw => isWord_modifier (fieldWords_modifiers f w hw)
  have hphrase := toList_typedPhrase [f.visibility.keyword, wordIf f.isStatic "static",
    wordIf f.isFinal "final"] hf.typeName.basic (isEmpty_word hf.name.1)
  have hline : Writes [indent ++ phrase [f.visibility.keyword, wordIf f.isStatic "static",
      wordIf f.isFinal "final", f.typeName, f.name] ++ defaultText " = " "" f.defaultValue ++ ";"]
      (fieldLexemes f) := by
    refine writes_line fun {cs more} h hend => ?_
    have hname := (h.mark (c := ';') (by decide)).word hf.name.1 (endsWord_cons rfl)
    have htype := hname.space.type hf.typeName.basic (endsWord_cons rfl)
    simp only [List.cons_append, List.nil_append] at hphrase
    simpa [fieldLexemes, fieldWords, hphrase, defaultText, hf.defaultValue] using
      (htype.words hwords).indented hindent
  rw [fieldLines_string]
  exact hline.documented (by simp [fieldLexemes]) hindent (noSlash_word hf.name.1)
    (List.forall_mem_nil _)

theorem Opens.parameter {p : Parameter} (h : Opens cs ls) (hp : RegularParameter p)
    (hend : EndsWord cs) : Opens ((parameterText p).toList ++ cs) (parameterLexemes p ++ ls) := by
  have hname := h.word hp.name.1 hend
  have htype := hname.space.type hp.typeName.basic (endsWord_cons rfl)
  simpa [parameterText, parameterLexemes, defaultText, hp.defaultValue] using htype

theorem Opens.signature (h : Opens cs ls) (hop : RegularOperation op) :
    Opens ((signature op).toList ++ cs) (signatureLexemes op ++ ls) := by
  have hreturn := isArrayOf_returnWord hop
  have hwords : ∀ w ∈ operationWords op, IsWord w := fun w hw =>
    isWord_modifier (operationWords_modifiers op w hw)
  let call := op.name ++ "(" ++ ", ".intercalate (op.parameters.map parameterText) ++ ")"
  have hcall : call.isEmpty = false := by
    refine isEmpty_of_toList ?_
    simp [call]
  have hphrase := toList_typedPhrase [op.visibility.keyword, wordIf op.isStatic "static",
    wordIf op.isAbstract "abstract", wordIf op.isFinal "final"] hreturn hcall
  simp only [List.cons_append, List.nil_append] at hphrase
  have hparameters : Opens ((", ".intercalate (op.parameters.map parameterText)).toList ++ ')' :: cs)
      (listed (op.parameters.map parameterLexemes) ++ .mark ")" :: ls) := by
    refine (h.mark (by decide)).items _ _ (endsWord_cons rfl) fun p hp {_ _} hrest hend => ?_
    exact hrest.parameter (hop.parameters p hp) hend
  have hname := (hparameters.mark (c := '(') (by decide)).word hop.name.1 (endsWord_cons rfl)
  have htype := hname.space.type hreturn (endsWord_cons rfl)
  simpa [Java.signature, signatureLexemes, operationWords, hphrase, call] using htype.words hwords

theorem Opens.stub (h : Opens (';' :: cs) ls) (returnType : String) :
    Opens ((stubValue returnType).toList ++ ';' :: cs) (stubLexeme returnType :: ls) := by
  unfold stubValue stubLexeme
  simp only [beq_iff_eq]
  split
  · exact h.word (by decide) (endsWord_cons rfl)
  · split
    · exact ⟨h.reads.zero, apart_cons (by simp)⟩
    · split
      · exact ⟨h.reads.nullCharacter, apart_cons (by simp)⟩
      · exact h.word (by decide) (endsWord_cons rfl)

/-- The lines of an operation behind its documentation. -/
def bodyLines (owner : ClassifierKind) (op : Operation) (indent : String) : List String :=
  if isBodiless owner op then [indent ++ signature op ++ ";"]
  else
    [indent ++ signature op ++ " \x7b"] ++
      (if returnWord op == voidWord then []
        else [indent ++ indent ++ "return " ++ stubValue (returnWord op) ++ ";"]) ++
      [indent ++ "\x7d"]

theorem writes_body (owner : ClassifierKind) (hop : RegularOperation op) (hindent : IsIndent indent) :
    Writes (bodyLines owner op indent) (operationLexemes owner op) := by
  unfold bodyLines operationLexemes bodyLexemes
  split
  · refine writes_line fun {cs more} h hend => ?_
    simpa using ((h.mark (c := ';') (by decide)).signature hop).indented hindent
  · have hopen : Writes [indent ++ signature op ++ " \x7b"] (signatureLexemes op ++ [.mark "\x7b"]) := by
      refine writes_line fun {cs more} h hend => ?_
      simpa using ((h.mark (c := '\x7b') (by decide)).space.signature hop).indented hindent
    have hclose : Writes [indent ++ "\x7d"] [.mark "\x7d"] := by
      refine writes_line fun {cs more} h hend => ?_
      simpa using (h.mark (c := '\x7d') (by decide)).indented hindent
    have hreturn : Writes (if returnWord op == voidWord then []
        else [indent ++ indent ++ "return " ++ stubValue (returnWord op) ++ ";"])
        (if returnWord op = voidWord then []
          else [.word "return", stubLexeme (returnWord op), .mark ";"]) := by
      simp only [beq_iff_eq]
      split
      · exact writes_nil
      · refine writes_line fun {cs more} h hend => ?_
        have hstub := (h.mark (c := ';') (by decide)).stub (returnWord op)
        have hword := hstub.space.word (s := "return") (by decide) (endsWord_cons rfl)
        simpa using (hword.indented hindent).indented hindent
    simpa using (hopen.append hreturn).append hclose

theorem writes_operation (owner : ClassifierKind) (hop : RegularOperation op)
    (hindent : IsIndent indent) :
    Writes (operationLines op owner indent) (freed (operationLexemes owner op)) := by
  refine (writes_body owner hop hindent).documented (by simp [operationLexemes, signatureLexemes])
    hindent (noSlash_word hop.name.1) ?_
  intro tag htag
  rcases List.mem_append.mp htag with htag | htag
  · obtain ⟨p, hp, rfl⟩ := List.mem_map.mp htag
    exact noSlash_append (by decide) (noSlash_word (hop.parameters p hp).name.1)
  · split at htag
    · cases htag
    · rw [List.mem_singleton.mp htag]
      decide

end Members

/-! ## The unit -/

section Unit

variable {c : Classifier} {segments : List String} {indent : String}

theorem Opens.literals {cs : List Char} {ls : List Lexeme} (h : Opens cs ls) (hend : EndsWord cs)
    (hliterals : ∀ literal ∈ c.literals, IsName literal) :
    Opens ((", ".intercalate c.literals).toList ++ cs)
      (listed (c.literals.map fun literal => [.word literal]) ++ ls) := by
  have hitems := h.items id (fun literal => [.word literal]) hend
    fun literal hliteral {_ _} hrest hend => hrest.word (hliterals literal hliteral).1 hend
  rwa [List.map_id] at hitems

theorem writes_constants (h : c.kind = .enumeration → ∀ literal ∈ c.literals, IsName literal)
    (hindent : IsIndent indent) : Writes (constantLines c indent) (constantLexemes c) := by
  have hlines : constantLines c indent =
      if c.kind == .enumeration && (!c.literals.isEmpty || hasMembers c) then
        [indent ++ ", ".intercalate c.literals ++ wordIf (hasMembers c) ";", ""] else [] := by
    rw [constantLines, Label.map_shown_string]
    rfl
  rw [hlines]
  by_cases hkind : c.kind = .enumeration
  · have hliterals := h hkind
    have hline : Writes [indent ++ ", ".intercalate c.literals ++ wordIf (hasMembers c) ";"]
        (constantLexemes c) := by
      refine writes_line fun {cs more} hmore hend => ?_
      unfold constantLexemes
      rw [if_pos hkind]
      cases hasMembers c with
      | true =>
        have hopens := (hmore.mark (c := ';') (by decide)).literals (endsWord_cons rfl) hliterals
        simpa [wordIf] using hopens.indented hindent
      | false => simpa [wordIf] using (hmore.literals hend hliterals).indented hindent
    split
    · simpa using hline.append writes_blank
    · rename_i hnone
      obtain ⟨hempty, hmembers⟩ : c.literals = [] ∧ hasMembers c = false := by
        simpa [hkind] using hnone
      simpa [constantLexemes, hempty, hmembers, listed] using writes_nil
  · simpa [hkind, constantLexemes] using writes_nil

theorem toList_header (h : IsName c.name) (relationships : List Relationship) :
    (header c relationships).toList =
      (headerWords c).flatMap (fun w => w.toList ++ [' ']) ++ c.name.toList ++
        (headerClauses c relationships).flatMap fun part => (clause part.1 part.2).toList := by
  unfold header headerWords headerClauses
  cases c.kind with
  | interface => simp
  | enumeration => simp
  | «class» =>
    have hphrase := toList_phrase ["public", wordIf c.isAbstract "abstract", "class"]
      (isEmpty_word h.1)
    cases habstract : c.isAbstract <;> simp_all [wordIf]

theorem isName_supertypeNames {relationships : List Relationship} {kinds : List RelationshipKind}
    (h : RegularTargets c relationships) : ∀ name ∈ supertypeNames c relationships kinds, IsName name := by
  intro name hname
  obtain ⟨r, hr, rfl⟩ := List.mem_map.mp hname
  obtain ⟨hr, hown⟩ := List.mem_filter.mp hr
  exact (h r hr (by simpa using (Bool.and_eq_true_iff.mp hown).1)).1

/-- Clauses start with words of their own and list names. -/
theorem headerClauses_regular {relationships : List Relationship} (h : RegularTargets c relationships) :
    ∀ part ∈ headerClauses c relationships,
      part.1 ∈ ["extends", "implements"] ∧ ∀ name ∈ part.2, IsName name := by
  have hnames (kinds : List RelationshipKind) :
      ∀ name ∈ supertypeNames c relationships kinds, IsName name := isName_supertypeNames h
  unfold headerClauses
  cases c.kind with
  | interface => simpa using hnames _
  | enumeration => simpa using hnames _
  | «class» => simpa using ⟨fun name hname => hnames _ name (List.mem_of_mem_take hname), hnames _⟩

theorem Opens.clause {part : String × List String} {cs : List Char} {ls : List Lexeme}
    (h : Opens cs ls) (hend : EndsWord cs) (hword : IsWord part.1) (hnames : ∀ name ∈ part.2, IsName name) :
    Opens ((Java.clause part.1 part.2).toList ++ cs) (clauseLexemes part ++ ls) ∧
      EndsWord ((Java.clause part.1 part.2).toList ++ cs) := by
  unfold Java.clause clauseLexemes
  split
  · exact ⟨h, hend⟩
  · have hlist := h.items id (fun name => [.word name]) hend
      fun name hname {_ _} hrest hend => hrest.word (hnames name hname).1 hend
    rw [List.map_id] at hlist
    have hclause := (hlist.space.word hword (endsWord_cons rfl)).space
    constructor
    · simpa using hclause
    · simpa using endsWord_cons (c := ' ') rfl

theorem Opens.clauses {parts : List (String × List String)} {cs : List Char} {ls : List Lexeme}
    (h : Opens cs ls) (hend : EndsWord cs)
    (hparts : ∀ part ∈ parts, IsWord part.1 ∧ ∀ name ∈ part.2, IsName name) :
    Opens ((parts.flatMap fun part => (Java.clause part.1 part.2).toList) ++ cs)
        (parts.flatMap clauseLexemes ++ ls) ∧
      EndsWord ((parts.flatMap fun part => (Java.clause part.1 part.2).toList) ++ cs) := by
  induction parts with
  | nil => exact ⟨h, hend⟩
  | cons part parts ih =>
    obtain ⟨⟨hword, hnames⟩, hparts⟩ := List.forall_mem_cons.mp hparts
    obtain ⟨hrest, hrestEnd⟩ := ih hparts
    simp only [List.flatMap_cons, List.append_assoc]
    exact hrest.clause hrestEnd hword hnames

theorem writes_header (h : Regular c) {relationships : List Relationship}
    (htargets : RegularTargets c relationships) :
    Writes [header c relationships ++ " \x7b"] (headerLexemes c relationships) := by
  refine writes_line fun {cs more} hmore hend => ?_
  have hparts : ∀ part ∈ headerClauses c relationships,
      IsWord part.1 ∧ ∀ name ∈ part.2, IsName name := fun part hpart => by
    obtain ⟨hword, hnames⟩ := headerClauses_regular htargets part hpart
    refine ⟨?_, hnames⟩
    simp only [List.mem_cons, List.not_mem_nil, or_false] at hword
    rcases hword with hword | hword <;> rw [hword] <;> decide
  obtain ⟨hclauses, hclausesEnd⟩ :=
    (hmore.mark (c := '\x7b') (by decide)).space.clauses (endsWord_cons rfl) hparts
  have hname := hclauses.word h.name.1 hclausesEnd
  have hwords : ∀ w ∈ headerWords c, IsWord w := by
    unfold headerWords
    split <;> try split
    all_goals decide
  simpa [headerLexemes, toList_header h.name] using hname.words hwords

theorem isArrayOf_memberTypes (h : Regular c) : ∀ t ∈ memberTypes c, IsArrayOf primitives t := by
  intro t ht
  rw [memberTypes_string] at ht
  rcases List.mem_append.mp ht with ht | ht
  · obtain ⟨f, hf, rfl⟩ := List.mem_map.mp ht
    exact (h.fields f hf).typeName
  · obtain ⟨op, hop, ht⟩ := List.mem_flatMap.mp ht
    have hregular := (h.operations op hop).1
    rcases List.mem_append.mp ht with ht | ht
    · exact hregular.returnType t (by simpa using ht)
    · obtain ⟨p, hp, rfl⟩ := List.mem_map.mp ht
      exact (hregular.parameters p hp).typeName

theorem restOfName_word {cs rest : List Char} (hcs : ∀ c ∈ cs, TypeNames.isPart c = true)
    (hrest : ∀ c ∈ rest.head?, TypeNames.isPart c = false ∧ c ≠ '.') :
    TypeNames.restOfName (cs ++ rest) = (cs, rest) := by
  induction cs with
  | nil =>
    cases rest with
    | nil => rfl
    | cons c rest =>
      obtain ⟨hpart, hpoint⟩ := hrest c rfl
      simp [TypeNames.restOfName, hpart, hpoint]
  | cons c cs ih =>
    obtain ⟨hc, hcs⟩ := List.forall_mem_cons.mp hcs
    simp [TypeNames.restOfName, hc, ih hcs]

theorem scan_pairs (n : Nat) : TypeNames.scan (List.replicate n ['[', ']']).flatten = [] := by
  induction n with
  | zero => exact TypeNames.scan.eq_1
  | succ n ih =>
    rw [List.replicate_succ, List.flatten_cons]
    simpa [TypeNames.scan, TypeNames.isStart] using ih

/-- An array of basic types refers to no classifier. -/
theorem ofText_basic {t : String} (h : IsArrayOf primitives t) : TypeNames.ofText t = [] := by
  obtain ⟨base, hbase, n, ht⟩ := h
  have hstarts : ∀ base ∈ primitives, base.toList.head?.all TypeNames.isStart = true := by decide
  have hletters : ∀ base ∈ primitives, base.toList.all TypeNames.isPart = true := by decide
  have hstart := hstarts base hbase
  have hparts := List.all_eq_true.mp (hletters base hbase)
  obtain ⟨c, rest, htext⟩ := List.exists_cons_of_ne_nil
    (isWord_ne_nil (isWord_basicType (primitive_basic hbase)))
  rw [htext] at hstart hparts
  have hc : TypeNames.isStart c = true := hstart
  have hend : ∀ c ∈ (List.replicate n ['[', ']']).flatten.head?,
      TypeNames.isPart c = false ∧ c ≠ '.' := by
    cases n with
    | zero => simp
    | succ n =>
      rintro c ⟨⟩
      decide
  have hscan : TypeNames.scan t.toList = [base.toList] := by
    rw [ht, htext, List.cons_append, TypeNames.scan, if_pos hc,
      restOfName_word (fun c' hc' => hparts c' (List.mem_cons_of_mem c hc')) hend, scan_pairs]
  have hreserved : TypeNames.isReserved base = true := by
    simp [TypeNames.isReserved, hbase]
  rw [TypeNames.ofText, hscan]
  simp [hreserved, TypeNames.distinct]

theorem toList_dotted (s : String) (segments : List String) :
    (".".intercalate (s :: segments)).toList = s.toList ++ segments.flatMap ('.' :: ·.toList) := by
  induction segments generalizing s with
  | nil => simp
  | cons r segments ih =>
    rw [String.intercalate_cons_cons, String.toList_append, String.toList_append, ih, List.flatMap_cons]
    simp

/-- A list of images is the image of a list. -/
theorem exists_eq_map {α β : Type} {f : α → β} {p : α → Prop} {ys : List β}
    (h : ∀ y ∈ ys, ∃ x, p x ∧ f x = y) : ∃ xs : List α, (∀ x ∈ xs, p x) ∧ ys = xs.map f := by
  induction ys with
  | nil => exact ⟨[], List.forall_mem_nil _, rfl⟩
  | cons y ys ih =>
    obtain ⟨⟨x, hx, hxy⟩, hrest⟩ := List.forall_mem_cons.mp h
    obtain ⟨xs, hxs, hmap⟩ := ih hrest
    exact ⟨x :: xs, List.forall_mem_cons.mpr ⟨hx, hxs⟩, by rw [hmap, List.map_cons, hxy]⟩

/-- A qualified name adds one segment to those of its namespace. -/
theorem qualify_dotted {segments : List String} (name : String)
    (h : (".".intercalate segments).isEmpty = false) :
    qualify (".".intercalate segments) name = ".".intercalate (segments ++ [name]) := by
  cases segments with
  | nil => cases h
  | cons s segments =>
    rw [qualify, Label.isVoid_string, h, if_neg Bool.false_ne_true, ← String.toList_inj, List.cons_append,
      toList_dotted, String.toList_append, String.toList_append, Label.shown_string, toList_dotted]
    simp

/-- The imports of a regular classifier are the qualified names of targets in other namespaces. -/
theorem imports_eq (scope : ImportScope) (h : Regular c) {relationships : List Relationship}
    (htargets : RegularTargets c relationships) : ∃ imported : List (List String),
      (∀ segments ∈ imported, segments ≠ [] ∧ ∀ s ∈ segments, IsName s) ∧
        imports scope c relationships = imported.map (".".intercalate ·) := by
  have hnone : (memberTypes c).flatMap
      (fun t => (TypeNames.ofText t).filterMap (nameImport scope c)) = [] := by
    rw [List.flatMap_eq_nil_iff]
    intro t ht
    rw [ofText_basic (isArrayOf_memberTypes h t ht)]
    rfl
  have hdotted : ∀ name ∈ imports scope c relationships, ∃ segments : List String,
      (segments ≠ [] ∧ ∀ s ∈ segments, IsName s) ∧ ".".intercalate segments = name := by
    intro name hname
    rw [imports, hnone, List.nil_append, sortedDistinct, List.mem_mergeSort, List.mem_eraseDups] at hname
    obtain ⟨r, hr, hname⟩ := List.mem_filterMap.mp hname
    obtain ⟨hr, hown⟩ := List.mem_filter.mp hr
    obtain ⟨htarget, segments, hsegments, hnamespace⟩ := htargets r hr (by simpa using hown)
    unfold importOf at hname
    split at hname
    · cases hname
    · rename_i hother
      have hne : segments ≠ [] := by
        rintro rfl
        simp [hnamespace] at hother
      refine ⟨segments ++ [r.target.name], ⟨by simp, ?_⟩, ?_⟩
      · exact List.forall_mem_append.mpr ⟨hsegments, List.forall_mem_singleton.mpr htarget⟩
      · rw [← Option.some.inj hname, EndpointOf.qualifiedName, qualify, hnamespace]
        refine (qualify_dotted _ ?_).symm
        rw [hnamespace, Bool.or_eq_true, Bool.or_eq_true, not_or, not_or] at hother
        exact Bool.eq_false_iff.mpr hother.1.2
  exact exists_eq_map hdotted

/-! ### The whole text -/

theorem Lexer.Reads.dotted {cs : List Char} {ls : List Lexeme} {s : String} {lead : Lead}
    (h : Reads cs ls) (hend : EndsWord cs) (hs : IsWord s) (hsegments : ∀ s ∈ segments, IsWord s) :
    Reads ((".".intercalate (s :: segments)).toList ++ cs) (⟨.word, s, lead⟩ ::
      (segments.flatMap fun r => [.suffix ".", ⟨.word, r, .nothing⟩]) ++ ls) := by
  induction segments generalizing s lead with
  | nil => simpa using h.word hs hend
  | cons r segments ih =>
    obtain ⟨hr, hsegments⟩ := List.forall_mem_cons.mp hsegments
    have hrest : Reads ((".".intercalate (r :: segments)).toList ++ cs) (⟨.word, r, .nothing⟩ ::
        (segments.flatMap fun r => [.suffix ".", ⟨.word, r, .nothing⟩]) ++ ls) := ih hr hsegments
    obtain ⟨c, text, htext, hstart⟩ : ∃ c text,
        (".".intercalate (r :: segments)).toList ++ cs = c :: text ∧ isNameStart c = true := by
      obtain ⟨c, text, htext, hstart, -⟩ := isWord_iff.mp hr
      cases segments with
      | nil => exact ⟨c, text ++ cs, by simp [htext], hstart⟩
      | cons r' segments => exact ⟨c, _, by simp [htext]; rfl, hstart⟩
    rw [htext] at hrest
    have hpoint : Reads ('.' :: c :: text) (.suffix "." :: _) := hrest.point hstart
    rw [String.intercalate_cons_cons, String.toList_append, String.toList_append, List.append_assoc,
      List.append_assoc, htext]
    exact hpoint.word hs (endsWord_cons rfl)

/-- A line of a word and a name with points. -/
theorem writes_dotted {s : String} (keyword : String) (hkeyword : IsWord keyword)
    (hsegments : ∀ r ∈ s :: segments, IsName r) :
    Writes [keyword ++ " " ++ ".".intercalate (s :: segments) ++ ";"]
      (.word keyword :: dottedLexemes (s :: segments) ++ [.mark ";"]) := by
  obtain ⟨hs, hsegments⟩ := List.forall_mem_cons.mp hsegments
  refine writes_line fun {cs more} hmore hend => ?_
  have hname : Opens ((".".intercalate (s :: segments)).toList ++ ';' :: cs)
      (dottedLexemes (s :: segments) ++ .mark ";" :: more) :=
    ⟨(hmore.mark (by decide)).reads.dotted (endsWord_cons rfl) hs.1 fun r hr =>
      (hsegments r hr).1, apart_cons (by simp)⟩
  simpa [dottedLexemes, Lexeme.word] using hname.space.word hkeyword (endsWord_cons rfl)

theorem writes_package (hsegments : ∀ s ∈ segments, IsName s) :
    Writes (if (".".intercalate segments).isEmpty then []
      else ["package " ++ ".".intercalate segments ++ ";", ""]) (packageLexemes segments) := by
  cases segments with
  | nil => simpa [packageLexemes] using writes_nil
  | cons s segments =>
    have hne : (".".intercalate (s :: segments)).isEmpty = false := by
      refine isEmpty_of_toList ?_
      have hs := isWord_ne_nil (hsegments s List.mem_cons_self).1
      cases segments with
      | nil => simpa using hs
      | cons r segments => simp
    rw [hne]
    simpa [packageLexemes] using
      (writes_dotted "package" (by decide) hsegments).append writes_blank

theorem writes_imports {imported : List (List String)}
    (h : ∀ segments ∈ imported, segments ≠ [] ∧ ∀ s ∈ segments, IsName s) :
    Writes (importLines (imported.map (".".intercalate ·))) (imported.flatMap importLexemes) := by
  have hlines : Writes (imported.flatMap fun segments => ["import " ++ ".".intercalate segments ++ ";"])
      (imported.map importLexemes).flatten := by
    refine writes_flatMap fun segments himported => ?_
    obtain ⟨hne, hsegments⟩ := h segments himported
    obtain ⟨s, segments, rfl⟩ := List.exists_cons_of_ne_nil hne
    exact writes_dotted "import" (by decide) hsegments
  cases imported with
  | nil => exact writes_nil
  | cons segments imported =>
    rw [← List.map_eq_flatMap] at hlines
    simpa [importLines, List.flatMap_def, Function.comp_def] using hlines.append writes_blank

/-- Members have a blank line behind each. -/
theorem writes_members (h : Regular c) (hindent : IsIndent indent) :
    Writes ((memberBlocks c indent).flatMap fun block => block ++ [""]) (memberLexemes c).flatten := by
  have hfields : Writes (c.fields.flatMap fun f => fieldLines f indent ++ [""])
      (c.fields.map fun f => freed (fieldLexemes f)).flatten :=
    writes_flatMap fun f hf => by
      simpa using (writes_field (h.fields f hf) hindent).append writes_blank
  have hoperations : Writes (c.operations.flatMap fun op => operationLines op c.kind indent ++ [""])
      (c.operations.map fun op => freed (operationLexemes c.kind op)).flatten :=
    writes_flatMap fun op hop => by
      simpa using (writes_operation c.kind (h.operations op hop).1 hindent).append writes_blank
  simpa [memberBlocks, memberLexemes, List.flatMap_map] using hfields.append hoperations

theorem writes_unit (h : Regular c) (hsegments : ∀ s ∈ segments, IsName s)
    (hnamespace : c.namespaceName = ".".intercalate segments) {relationships : List Relationship}
    (htargets : RegularTargets c relationships) {style : UnitStyle} (hindent : IsIndent style.indent)
    {known : List Endpoint} {imported : List (List String)}
    (himported : ∀ segments ∈ imported, segments ≠ [] ∧ ∀ s ∈ segments, IsName s)
    (himports : imports ⟨known, style.defaultNamespace⟩ c relationships =
      imported.map (".".intercalate ·)) :
    Writes (unitLines style c relationships known) (unitLexemes segments imported c relationships) := by
  have hpackage := writes_package hsegments
  have hheader : Writes (documentation "" c.name [] ++ [header c relationships ++ " \x7b"])
      (freed (headerLexemes c relationships)) :=
    (writes_header h htargets).documented (by simp [headerLexemes]) (by decide)
      (noSlash_word h.name.1) (List.forall_mem_nil _)
  have hclose : Writes ["\x7d"] [.mark "\x7d"] := by
    refine writes_line fun {cs more} hmore hend => ?_
    simpa using hmore.mark (c := '\x7d') (by decide)
  have hunit := (((((hpackage.append (writes_imports himported)).append hheader).append
    writes_blank).append (writes_constants h.literals hindent)).append
    (writes_members h hindent)).append hclose
  simpa [unitLines, unitLexemes, himports, hnamespace] using hunit

theorem tokens_eq {cs : List Char} (h : cs.head? ≠ some '\uFEFF') :
    tokens cs = tokensFrom (cs.length + 1) 1 [] cs := by
  unfold tokens
  split
  · exact absurd rfl h
  · rfl

/-- The text of a unit is made of the words and marks of its classifier. -/
theorem spells_generate (h : Regular c) (hsegments : ∀ s ∈ segments, IsName s)
    (hnamespace : c.namespaceName = ".".intercalate segments) {relationships : List Relationship}
    (htargets : RegularTargets c relationships) {style : UnitStyle} (hindent : IsIndent style.indent)
    (known? : Option (List Endpoint)) : ∃ imported : List (List String),
      (∀ segments ∈ imported, segments ≠ [] ∧ ∀ s ∈ segments, IsName s) ∧
        List.Forall₂ Spells (tokens (generate style c relationships known?).toList)
          (unitLexemes segments imported c relationships) := by
  let known := known?.getD (endpoints c relationships)
  let lines := unitLines style c relationships known
  obtain ⟨imported, himported, himports⟩ := imports_eq ⟨known, style.defaultNamespace⟩ h htargets
  have hlines : lines ≠ [] := by simp [lines, unitLines]
  have hhead : (charsOf lines).head? ≠ some '\uFEFF' := by
    cases imported <;> by_cases hempty : c.namespaceName.isEmpty <;>
      simp [lines, unitLines, hempty, himports, importLines, documentation, charsOf]
  have hwrites := writes_unit h hsegments hnamespace htargets hindent himported himports opens_nil
  rw [List.append_nil, List.append_nil] at hwrites
  have htext : (generate style c relationships known?).toList = charsOf lines := toList_lines hlines
  refine ⟨imported, himported, ?_⟩
  rw [htext, tokens_eq hhead]
  exact hwrites.reads _ _ (Nat.lt_succ_self _)

end Unit

end ClassAtlas.Java
