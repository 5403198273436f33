import ClassAtlas.Proofs.CommentedTrees
import ClassAtlas.Proofs.UnitText

/-! # The phrases of a unit

What the parser makes of tokens whose words and marks are known: it passes over types and blocks, puts
modifiers into one tree, and a tree without comments has just the children it was made of. -/

namespace ClassAtlas.Java

open Phrase (starts startsAny)

/-! ## Tokens -/

/-- Tokens with no comments before them. -/
def Bare (ts : List Token) : Prop := ∀ t ∈ ts, t.comments = []

section Tokens

variable {t : Token} {ts : List Token} {l : Lexeme} {ls ls' : List Lexeme} {s name : String}
  {lead : Lead}

theorem bare_cons (ht : t.comments = []) (hts : Bare ts) : Bare (t :: ts) :=
  List.forall_mem_cons.mpr ⟨ht, hts⟩

theorem bare_singleton (ht : t.comments = []) : Bare [t] := List.forall_mem_singleton.mpr ht

theorem bare_of_spells (h : List.Forall₂ Spells ts ls) (hls : ∀ l ∈ ls, l.lead ≠ .any) : Bare ts := by
  induction h with
  | nil => exact List.forall_mem_nil _
  | cons hhead _ ih =>
    obtain ⟨hl, hls⟩ := List.forall_mem_cons.mp hls
    exact List.forall_mem_cons.mpr ⟨hhead.bare hl, ih hls⟩

theorem Spells.free (h : Spells t l) : Spells t { l with lead := .any } :=
  ⟨h.kind, h.text, (absurd rfl ·), fun hlead => by simp at hlead⟩

theorem forall₂_append {α β : Type} {R : α → β → Prop} {xs : List α} {ys ys' : List β}
    (h : List.Forall₂ R xs (ys ++ ys')) :
    ∃ us vs, xs = us ++ vs ∧ List.Forall₂ R us ys ∧ List.Forall₂ R vs ys' :=
  ⟨_, _, (List.take_append_drop _ xs).symm, List.forall₂_take_append _ _ _ h,
    List.forall₂_drop_append _ _ _ h⟩

theorem Spells.is_mark (h : Spells t ⟨.mark, s, lead⟩) : t.is s = true := by
  rw [h.is_eq]
  simp [Lexeme.is]

theorem Spells.is_of_ne (h : Spells t l) (hs : l.text ≠ s) : t.is s = false := by
  rw [h.is_eq, Lexeme.is, beq_eq_false_iff_ne.mpr hs, Bool.and_false]

theorem Spells.isAnyOf_of_notMem {words : List String} (h : Spells t l) (hl : l.text ∉ words) :
    t.isAnyOf words = false := by
  rw [Token.isAnyOf, List.any_eq_false]
  intro s hs
  rw [h.is_of_ne fun heq => hl (heq ▸ hs)]
  exact Bool.false_ne_true

theorem Spells.isAnyOf_of_mem {words : List String} (h : Spells t l)
    (hkind : l.kind = .word ∨ l.kind = .mark) (hl : l.text ∈ words) : t.isAnyOf words = true := by
  rw [Token.isAnyOf, List.any_eq_true]
  refine ⟨l.text, hl, ?_⟩
  rw [h.is_eq, Lexeme.is]
  rcases hkind with hkind | hkind <;> simp [hkind]

/-- A name is none of the words that mean something. -/
theorem IsName.notMem {words : List String} (h : IsName name)
    (hwords : ∀ w ∈ words, ¬ IsName w) : name ∉ words := fun hmem => hwords name hmem h

theorem isAnyOf_eq_false {words : List String} (h : t.isAnyOf words = false) (hs : s ∈ words) :
    t.is s = false := by
  rw [Token.isAnyOf, List.any_eq_false] at h
  exact Bool.eq_false_iff.mpr (h s hs)

/-- A token that is none of some words is none of fewer words. -/
theorem isAnyOf_mono {words fewer : List String} (h : t.isAnyOf words = false) (hsub : fewer ⊆ words) :
    t.isAnyOf fewer = false := by
  rw [Token.isAnyOf, List.any_eq_false] at h ⊢
  exact fun w hw => h w (hsub hw)

end Tokens

/-! ## Phrases -/

namespace Phrase

variable {t : Token} {ts rest pairs : List Token} {fuel n : Nat}

theorem annotationUse_eq_none (h : starts "@" ts = false) : annotationUse fuel ts = none := by
  cases fuel with
  | zero => rfl
  | succ fuel =>
    have hstart : isAnnotationStart ts = false := by
      unfold isAnnotationStart
      split
      · rename_i at_ next _
        have hat : at_.is "@" = false := h
        simp [hat]
      · rfl
    rw [annotationUse, hstart]
    rfl

theorem annotations_eq (h : starts "@" ts = false) : annotations fuel ts = ts := by
  cases fuel with
  | zero => rfl
  | succ fuel => rw [annotations, annotationUse_eq_none h]

theorem dimensions_eq (hat : starts "@" ts = false) (hopen : starts "[" ts = false) :
    dimensions fuel ts = ts := by
  cases fuel with
  | zero => rfl
  | succ fuel =>
    have heat : eat "[" ts = none := by
      cases ts with
      | nil => rfl
      | cons t ts =>
        have ht : t.is "[" = false := hopen
        rw [eat, ht]
        rfl
    rw [dimensions, annotations_eq hat, heat]
    rfl

/-- Pairs of square brackets are passed over up to the last. -/
theorem dimensions_pairs (hpairs : List.Forall₂ Spells pairs (pairLexemes n)) (hfuel : n ≤ fuel)
    (hat : starts "@" rest = false) (hopen : starts "[" rest = false) :
    dimensions fuel (pairs ++ rest) = rest := by
  induction n generalizing pairs fuel with
  | zero =>
    cases hpairs
    exact dimensions_eq hat hopen
  | succ n ih =>
    obtain ⟨fuel, rfl⟩ : ∃ m, fuel = m + 1 := ⟨fuel - 1, by omega⟩
    have hsplit : pairLexemes (n + 1) = .suffix "[" :: .suffix "]" :: pairLexemes n := by
      simp [pairLexemes, List.replicate_succ]
    rw [hsplit] at hpairs
    cases hpairs with
    | @cons opening _ _ _ hopening hpairs =>
      cases hpairs with
      | @cons closing _ pairs _ hclosing hpairs =>
        have his : opening.is "[" = true := hopening.is_mark
        have his' : closing.is "]" = true := hclosing.is_mark
        have hnone : starts "@" (opening :: closing :: (pairs ++ rest)) = false :=
          hopening.is_of_ne (by decide)
        rw [List.cons_append, List.cons_append, dimensions, annotations_eq hnone]
        simp only [eat, his, his', if_true, Option.bind_some]
        exact ih hpairs (by omega)

theorem length_pairs (hpairs : List.Forall₂ Spells pairs (pairLexemes n)) : pairs.length = 2 * n := by
  rw [hpairs.length_eq, pairLexemes]
  simp [Nat.mul_comm]

/-- A basic type with its brackets. -/
theorem plainType?_array (hbase : t.isAnyOf basicTypes = true)
    (hpairs : List.Forall₂ Spells pairs (pairLexemes n)) (hat : starts "@" rest = false)
    (hopen : starts "[" rest = false) : plainType? (t :: (pairs ++ rest)) = some rest := by
  have hlength := length_pairs hpairs
  obtain ⟨fuel, hfuel, hn⟩ : ∃ fuel, budget (t :: (pairs ++ rest)) = fuel + 2 ∧ n ≤ fuel + 1 := by
    refine ⟨budget (t :: (pairs ++ rest)) - 2, ?_, ?_⟩ <;>
      simp only [budget, List.length_cons, List.length_append, hlength] <;> omega
  have hstart : startsAny basicTypes (t :: (pairs ++ rest)) = true := hbase
  rw [plainType?, hfuel, plainType, singleType, hstart]
  simp only [if_true, Option.map_some, List.drop_one, List.tail_cons]
  rw [dimensions_pairs hpairs hn hat hopen]

theorem afterDimensions_eq (hat : starts "@" ts = false) (hopen : starts "[" ts = false) :
    afterDimensions ts = ts := dimensions_eq hat hopen

/-- Everything between braces is passed over if there is no brace in it. -/
theorem braces_eq {opening close : Token} {inner : List Token} (hopening : opening.is "\x7b" = true)
    (hclose : close.is "\x7d" = true) (hclose' : close.is "\x7b" = false)
    (hinner : ∀ t ∈ inner, t.is "\x7b" = false ∧ t.is "\x7d" = false) :
    braces (opening :: (inner ++ close :: rest)) = some rest := by
  have hclosing : closing "\x7b" "\x7d" 1 (inner ++ close :: rest) = some rest := by
    induction inner with
    | nil => simp [closing, hclose, hclose']
    | cons t inner ih =>
      obtain ⟨⟨ht, ht'⟩, hinner⟩ := List.forall_mem_cons.mp hinner
      rw [List.cons_append, closing, ht, ht']
      exact ih hinner
  rw [braces, balanced, eat, hopening]
  exact hclosing

end Phrase

/-! ## Trees -/

namespace Tree

variable {t : Tree} {cs : List Tree} {ts : List Token} {k : Kind}

@[simp]
theorem part?_as (t : Tree) (p : Part) : (t.as p).part? = some p := by cases t <;> rfl

@[simp]
theorem kind_as (t : Tree) (p : Part) : (t.as p).kind = t.kind := by cases t <;> rfl

@[simp]
theorem children_as (t : Tree) (p : Part) : (t.as p).children = t.children := by cases t <;> rfl

@[simp]
theorem leaves_as (t : Tree) (p : Part) : (t.as p).leaves = t.leaves := by cases t <;> rfl

@[simp]
theorem hasError_as (t : Tree) (p : Part) : (t.as p).hasError = t.hasError := by cases t <;> rfl

mutual
theorem takeComments_bare : ∀ t : Tree, Bare t.leaves → t.takeComments = ([], t)
  | .leaf _ _ t _, h => by
    have hnone : t.comments = [] := h t (by simp [leaves])
    unfold takeComments
    rw [hnone, ← hnone]
  | .node _ _ cs, h => by
    unfold takeComments
    rw [takeFirstComments_bare cs h]

theorem takeFirstComments_bare : ∀ cs, Bare (leavesOf cs) → takeFirstComments cs = ([], cs)
  | [], _ => rfl
  | t :: rest, h => by
    have ht : Bare t.leaves := fun token htoken => h token (List.mem_append_left _ htoken)
    unfold takeFirstComments
    rw [takeComments_bare t ht]
end

/-- Without comments between its parts a node has just these as its children. -/
theorem make_eq_of_takeComments (h : ∀ c ∈ cs.tail, c.takeComments = ([], c)) :
    make k cs = .node none k cs := by
  have hrest : ∀ rest : List Tree, (∀ c ∈ rest, c.takeComments = ([], c)) →
      rest.flatMap withComments = rest := by
    intro rest hrest
    induction rest with
    | nil => rfl
    | cons c rest ih =>
      obtain ⟨hc, hrest⟩ := List.forall_mem_cons.mp hrest
      rw [List.flatMap_cons, ih hrest, withComments, hc]
      rfl
  cases cs with
  | nil => rfl
  | cons first rest => rw [make, spread, hrest rest h]

theorem make_eq (h : ∀ c ∈ cs.tail, Bare c.leaves) : make k cs = .node none k cs :=
  make_eq_of_takeComments fun c hc => takeComments_bare c (h c hc)

theorem leavesOf_map_word (ts : List Token) : leavesOf (ts.map word) = ts := by
  induction ts with
  | nil => rfl
  | cons t ts ih => exact congrArg (t :: ·) ih

theorem flat_eq (h : Bare ts.tail) : flat k ts = .node none k (ts.map word) := by
  refine make_eq fun c hc => ?_
  rw [← List.map_tail] at hc
  obtain ⟨t, ht, rfl⟩ := List.mem_map.mp hc
  intro t' ht'
  cases List.mem_singleton.mp ht'
  exact h t ht

theorem anyError_map_word (ts : List Token) : anyError (ts.map word) = false := by
  induction ts with
  | nil => rfl
  | cons t ts ih => exact ih

end Tree

/-- A part of a member: no comments before its tokens, and no error in it. -/
structure Tidy (t : Tree) : Prop where
  bare : Bare t.leaves
  sound : t.hasError = false

section Tidy

variable {t : Tree} {cs : List Tree} {ts : List Token} {k : Kind}

theorem tidy_leaf {token : Token} (p : Option Part) (h : token.comments = []) (hk : k ≠ .error) :
    Tidy (.leaf p k token false) := by
  refine ⟨?_, ?_⟩
  · intro token' htoken'
    cases List.mem_singleton.mp htoken'
    exact h
  · show (k == .error || false) = false
    rw [Bool.or_false, beq_eq_false_iff_ne]
    exact hk

theorem Tidy.as (h : Tidy t) (p : Part) : Tidy (t.as p) :=
  ⟨by rw [Tree.leaves_as]; exact h.bare, by rw [Tree.hasError_as]; exact h.sound⟩

theorem bare_leavesOf (h : ∀ c ∈ cs, Tidy c) : Bare (Tree.leavesOf cs) := by
  induction cs with
  | nil => exact List.forall_mem_nil _
  | cons c cs ih =>
    obtain ⟨hc, hcs⟩ := List.forall_mem_cons.mp h
    exact List.forall_mem_append.mpr ⟨hc.bare, ih hcs⟩

theorem anyError_eq_false (h : ∀ c ∈ cs, c.hasError = false) : Tree.anyError cs = false := by
  induction cs with
  | nil => rfl
  | cons c cs ih =>
    obtain ⟨hc, hcs⟩ := List.forall_mem_cons.mp h
    rw [Tree.anyError, hc, ih hcs]
    rfl

theorem tidy_node (p : Option Part) (h : ∀ c ∈ cs, Tidy c) (hk : k ≠ .error) :
    Tidy (.node p k cs) := by
  refine ⟨bare_leavesOf h, ?_⟩
  rw [Tree.hasError, anyError_eq_false fun c hc => (h c hc).sound, Bool.or_false, beq_eq_false_iff_ne]
  exact hk

end Tidy

/-! ## Modifiers and types -/

namespace Declaration

/-- The modifiers of a member as the first of its parts. -/
def modifierTrees (ts : List Token) : List Tree :=
  if ts.isEmpty then [] else [.flat .modifiers ts]

/-- A type as a part of a declaration. -/
def typeTree (ts : List Token) : Tree := (Tree.flat .phrase ts).as .type

theorem before_append (ts rest : List Token) : before rest (ts ++ rest) = ts := by
  simp [before]

variable {t : Token} {ts mods rest : List Token} {fuel : Nat}

/-- Tokens that go on with no modifier. -/
structure EndsModifiers (ts : List Token) : Prop where
  annotation : starts "@" ts = false
  word : startsAny modifierWords ts = false
  sealed : isSealed ts = false
  unsealed : isUnsealed ts = false

theorem modifiersFrom_words (hmods : ∀ t ∈ mods, t.isAnyOf modifierWords = true ∧ t.is "@" = false)
    (hrest : EndsModifiers rest) (hfuel : mods.length ≤ fuel) :
    modifiersFrom fuel (mods ++ rest) = (mods.map Tree.word, rest) := by
  induction mods generalizing fuel with
  | nil =>
    cases fuel with
    | zero => rfl
    | succ fuel =>
      unfold modifiersFrom
      rw [List.nil_append, Phrase.annotationUse?, Phrase.annotationUse_eq_none hrest.annotation]
      cases rest with
      | nil => rfl
      | cons t rest =>
        have ht : t.isAnyOf modifierWords = false := hrest.word
        simp only [ht, hrest.sealed, hrest.unsealed]
        rfl
  | cons t mods ih =>
    obtain ⟨⟨ht, hat⟩, hmods⟩ := List.forall_mem_cons.mp hmods
    obtain ⟨fuel, rfl⟩ : ∃ m, fuel = m + 1 := ⟨fuel - 1, by simp at hfuel; omega⟩
    have hnone : starts "@" (t :: mods ++ rest) = false := hat
    unfold modifiersFrom
    rw [Phrase.annotationUse?, Phrase.annotationUse_eq_none hnone]
    simp only [List.cons_append, ht, Bool.true_or, if_true]
    rw [ih hmods (by simpa using hfuel)]
    rfl

theorem modifiers_words (hmods : ∀ t ∈ mods, t.isAnyOf modifierWords = true ∧ t.is "@" = false)
    (hrest : EndsModifiers rest) : modifiers (mods ++ rest) = (modifierTrees mods, rest) := by
  rw [modifiers, modifiersFrom_words hmods hrest (by simp)]
  simp [modifierTrees, Tree.flat]

theorem modifiers_none (hrest : EndsModifiers rest) : modifiers rest = ([], rest) :=
  modifiers_words (List.forall_mem_nil _) hrest

end Declaration

/-! ### The text of a type -/

namespace TypeText

variable {cs : List Char}

theorem leadingWord_eq (h : ∀ c ∈ cs, Text.isBlank c = false) : Text.leadingWord cs = (cs, []) := by
  induction cs with
  | nil => rfl
  | cons c cs ih =>
    obtain ⟨hc, hcs⟩ := List.forall_mem_cons.mp h
    simp [Text.leadingWord, ih hcs, hc]

theorem joinedWords_eq (h : ∀ c ∈ cs, Text.isBlank c = false) : Text.joinedWords cs = cs := by
  rw [Text.joinedWords, Text.wordsOf, leadingWord_eq h]
  cases cs with
  | nil => rfl
  | cons c cs => exact List.intercalate_singleton

theorem closeBefore_eq (stop : List Char → Bool) (h : ∀ c ∈ cs, Text.isBlank c = false) :
    closeBefore stop cs = cs := by
  induction cs with
  | nil => rfl
  | cons c cs ih =>
    obtain ⟨hc, hcs⟩ := List.forall_mem_cons.mp h
    simp [closeBefore, hc, ih hcs]

theorem closeAfter_eq (start : Char → Bool) (after : Bool) (h : ∀ c ∈ cs, Text.isBlank c = false) :
    closeAfter start after cs = cs := by
  induction cs generalizing after with
  | nil => rfl
  | cons c cs ih =>
    obtain ⟨hc, hcs⟩ := List.forall_mem_cons.mp h
    simp [closeAfter, hc, ih _ hcs]

theorem closePairs_eq (opened : Bool) (h : ∀ c ∈ cs, Text.isBlank c = false) :
    closePairs opened cs = cs := by
  induction cs generalizing opened with
  | nil => rfl
  | cons c cs ih =>
    obtain ⟨hc, hcs⟩ := List.forall_mem_cons.mp h
    simp [closePairs, hc, ih _ hcs]

theorem spaceAfterComma_eq (h : ∀ c ∈ cs, c ≠ ',') : spaceAfterComma cs = cs := by
  induction cs with
  | nil => rfl
  | cons c cs ih =>
    obtain ⟨hc, hcs⟩ := List.forall_mem_cons.mp h
    have htail : cs.flatMap (fun c => if c == ',' then [',', ' '] else [c]) = cs := ih hcs
    simpa [spaceAfterComma, hc] using htail

/-- A type without blanks and commas is its own canonical text. -/
theorem normalize_eq {s : String} (hblank : ∀ c ∈ s.toList, Text.isBlank c = false)
    (hcomma : ∀ c ∈ s.toList, c ≠ ',') : normalize s = s := by
  rw [normalize, normalizeChars, joinedWords_eq hblank, tightOpen, closeBefore_eq _ hblank,
    closeAfter_eq _ _ hblank, tightClose, closeBefore_eq _ hblank, tightComma, closeBefore_eq _ hblank,
    closeAfter_eq _ _ hblank, spaceAfterComma_eq hcomma, tightPairs, closePairs_eq _ hblank,
    closeBefore_eq _ hblank, tightPoints, closeBefore_eq _ hblank, String.ofList_toList]

end TypeText

section Types

variable {s : String} {base : Token} {pairs : List Token}

theorem IsArrayOf.normalize_eq (h : IsArrayOf Phrase.basicTypes s) : TypeText.normalize s = s := by
  obtain ⟨base, hbase, n, hs⟩ := h
  have hchars : ∀ c ∈ s.toList, Text.isBlank c = false ∧ c ≠ ',' := by
    rw [hs]
    refine List.forall_mem_append.mpr ⟨?_, ?_⟩
    · have hall : ∀ base ∈ Phrase.basicTypes,
          base.toList.all (fun c => !Text.isBlank c && c != ',') = true := by decide
      intro c hc
      simpa using List.all_eq_true.mp (hall base hbase) c hc
    · intro c hc
      obtain ⟨pair, hpair, hc⟩ := List.mem_flatten.mp hc
      rw [List.eq_of_mem_replicate hpair] at hc
      simp only [List.mem_cons, List.not_mem_nil, or_false] at hc
      rcases hc with rfl | rfl <;> decide
  exact TypeText.normalize_eq (fun c hc => (hchars c hc).1) fun c hc => (hchars c hc).2

theorem IsArrayOf.split (h : IsArrayOf Phrase.basicTypes s) : typeBase s ∈ Phrase.basicTypes ∧
    s.toList = (typeBase s).toList ++ (List.replicate (typeDepth s) ['[', ']']).flatten := by
  obtain ⟨base, hbase, n, hs⟩ := h
  rw [typeBase_eq hbase hs, typeDepth_eq hbase hs]
  exact ⟨hbase, hs⟩

/-- Tokens without anything between them have just their texts. -/
theorem flatMap_full {ts : List Token} {ls : List Lexeme} (h : List.Forall₂ Spells ts ls)
    (hls : ∀ l ∈ ls, l.lead = .nothing) :
    ts.flatMap Token.full = ls.flatMap (·.text.toList) := by
  induction h with
  | nil => rfl
  | @cons t l _ _ hhead _ ih =>
    obtain ⟨hl, hls⟩ := List.forall_mem_cons.mp hls
    have hcomments := hhead.bare (by simp [hl])
    rw [List.flatMap_cons, List.flatMap_cons, ih hls, Token.full, hcomments, hhead.joined hl, hhead.text]
    rfl

theorem lead_pairLexemes (n : Nat) : ∀ l ∈ pairLexemes n, l.lead = .nothing := by
  intro l hl
  obtain ⟨pair, hpair, hl⟩ := List.mem_flatten.mp hl
  rw [List.eq_of_mem_replicate hpair] at hl
  simp only [List.mem_cons, List.not_mem_nil, or_false] at hl
  rcases hl with rfl | rfl <;> rfl

theorem bare_pairs {n : Nat} (h : List.Forall₂ Spells pairs (pairLexemes n)) : Bare pairs :=
  bare_of_spells h fun l hl => by simp [lead_pairLexemes n l hl]

theorem flatMap_full_pairs {n : Nat} (h : List.Forall₂ Spells pairs (pairLexemes n)) :
    pairs.flatMap Token.full = (List.replicate n ['[', ']']).flatten := by
  rw [flatMap_full h (lead_pairLexemes n), pairLexemes]
  clear h
  induction n with
  | zero => rfl
  | succ n ih =>
    rw [List.replicate_succ, List.replicate_succ, List.flatten_cons, List.flatten_cons,
      List.flatMap_append, ih]
    simp [Lexeme.suffix]

theorem typeTree_eq {n : Nat} (h : List.Forall₂ Spells pairs (pairLexemes n)) :
    Declaration.typeTree (base :: pairs) =
      .node (some .type) .phrase ((base :: pairs).map .word) := by
  have hbare : Bare (base :: pairs).tail := bare_pairs h
  rw [Declaration.typeTree, Tree.flat_eq hbare]
  rfl

/-- A type is read with its text. -/
theorem string_typeTree (h : IsArrayOf Phrase.basicTypes s) (hbase : base.text = (typeBase s).toList)
    (hpairs : List.Forall₂ Spells pairs (pairLexemes (typeDepth s))) :
    (Declaration.typeTree (base :: pairs)).string = s := by
  have hleaves : (Declaration.typeTree (base :: pairs)).leaves = base :: pairs := by
    rw [typeTree_eq hpairs]
    exact Tree.leavesOf_map_word _
  rw [Tree.string, Tree.text, hleaves]
  show String.ofList (base.text ++ pairs.flatMap Token.full) = s
  rw [hbase, flatMap_full_pairs hpairs, ← h.split.2, String.ofList_toList]

end Types

end ClassAtlas.Java
