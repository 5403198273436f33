import ClassAtlas.Java.TypeText
import Mathlib.Data.List.Infix

/-! # Normalized type texts

What the canonical text of a type keeps of a text are its characters that are no blanks and, before each
of them, whether blanks stand there. The steps that make it decide one after another which of these gaps
stay. All of them but the last amount to one rule about a character and its neighbours. The last step,
which closes the gap before three points, can bring three points together behind another gap, and this
gap it leaves: a canonical text is its own canonical text unless a space stands before three points in
it. -/

namespace ClassAtlas.Java.TypeText

open ClassAtlas.Text

/-- A character that is no blank, and whether blanks stand before it. -/
structure Glyph where
  gap : Bool
  char : Char
deriving DecidableEq

@[simp] theorem beq_glyph {gap gap' : Bool} {c c' : Char} :
    ((⟨gap, c⟩ : Glyph) == ⟨gap', c'⟩) = (gap == gap' && c == c') := by
  rw [Bool.eq_iff_iff]
  simp

/-- Whether a gap stays, by what stands before its character and what follows. -/
abbrev Rule := Option Char → Glyph → List Glyph → Bool

/-- The characters of a text that are no blanks; the flag says whether blanks stand before it. -/
def read : Bool → List Char → List Glyph
  | _, [] => []
  | gap, c :: rest => if isBlank c then read true rest else ⟨gap, c⟩ :: read false rest

/-- A text with one space for each gap. -/
def write (gs : List Glyph) : List Char := gs.flatMap fun g => if g.gap then [' ', g.char] else [g.char]

/-- The gaps that stay by a rule. -/
def regap (rule : Rule) : Option Char → List Glyph → List Glyph
  | _, [] => []
  | before, g :: rest => ⟨rule before g rest, g.char⟩ :: regap rule (some g.char) rest

/-- None of the characters is a blank. -/
def Inked (gs : List Glyph) : Prop := ∀ g ∈ gs, isBlank g.char = false

/-! ## Reading and writing -/

section Glyphs

variable {cs tail : List Char} {gs : List Glyph} {g : Glyph} {rule rule' : Rule}

@[simp] theorem write_nil : write [] = [] := rfl

theorem write_cons : write (g :: gs) = if g.gap then ' ' :: g.char :: write gs else g.char :: write gs := by
  cases hgap : g.gap <;> simp [write, hgap]

@[simp] theorem write_cons_gap {c : Char} : write (⟨true, c⟩ :: gs) = ' ' :: c :: write gs := rfl

@[simp] theorem write_cons_tight {c : Char} : write (⟨false, c⟩ :: gs) = c :: write gs := rfl

theorem inked_cons {gap : Bool} {c : Char} :
    Inked (⟨gap, c⟩ :: gs) ↔ isBlank c = false ∧ Inked gs := by
  simp only [Inked, List.forall_mem_cons]

theorem inked_read (gap : Bool) (cs : List Char) : Inked (read gap cs) := by
  induction cs generalizing gap with
  | nil => exact fun _ h => by cases h
  | cons c rest ih =>
    rw [read]
    split
    · exact ih true
    · next hc => exact inked_cons.mpr ⟨by simpa using hc, ih false⟩

theorem chars_regap (before : Option Char) :
    (regap rule before gs).map (·.char) = gs.map (·.char) := by
  induction gs generalizing before with
  | nil => rfl
  | cons g gs ih => rw [regap, List.map_cons, List.map_cons, ih]

theorem Inked.regap (h : Inked gs) (before : Option Char) : Inked (regap rule before gs) := by
  intro g hg
  have hchar : g.char ∈ gs.map (·.char) := chars_regap before ▸ List.mem_map_of_mem hg
  obtain ⟨g', hg', heq⟩ := List.mem_map.mp hchar
  exact heq ▸ h g' hg'

/-- Rules that agree on gaps that are there leave the same gaps. -/
theorem regap_regap (before : Option Char) : regap rule' before (regap rule before gs) =
    regap (fun before g rest =>
      rule' before ⟨rule before g rest, g.char⟩ (regap rule (some g.char) rest)) before gs := by
  induction gs generalizing before with
  | nil => rfl
  | cons g gs ih => simp only [regap, ih]

theorem regap_eq_self (h : ∀ c g rest, rule (some c) g rest = g.gap) (c : Char) :
    regap rule (some c) gs = gs := by
  induction gs generalizing c with
  | nil => rfl
  | cons g gs ih => rw [regap, h, ih]

/-- A written text reads back, whatever blanks stand behind it. -/
theorem read_write (h : Inked gs) (htail : ∀ c ∈ tail, isBlank c = true) :
    read false (write gs ++ tail) = gs := by
  have htail' : ∀ gap, read gap tail = [] := by
    intro gap
    induction tail generalizing gap with
    | nil => rfl
    | cons c tail ih =>
      rw [read, if_pos (htail c List.mem_cons_self)]
      exact ih (fun d hd => htail d (List.mem_cons_of_mem _ hd)) true
  induction gs with
  | nil => exact htail' false
  | cons g gs ih =>
    obtain ⟨gap, c⟩ := g
    obtain ⟨hc, hgs⟩ := inked_cons.mp h
    have hspace : isBlank ' ' = true := by decide
    cases gap <;> simp [read, hspace, hc, ih hgs]

end Glyphs

/-! ## The steps -/

section Steps

variable {gs : List Glyph} {tail : List Char} {a : Char} {before : Option Char}

/-- The gap before the first character goes. -/
def inside : Rule := fun before g _ => before.isSome && g.gap

theorem intercalate_space (w : List Char) (ws : List (List Char)) :
    [' '].intercalate (w :: ws) = w ++ ws.flatMap (' ' :: ·) := by
  induction ws generalizing w with
  | nil => simp
  | cons v ws ih => rw [List.intercalate_cons_cons, ih]; simp

theorem write_read (cs : List Char) :
    write (read false cs) = (leadingWord cs).1 ++ (leadingWord cs).2.flatMap (' ' :: ·) ∧
      write (read true cs) = (wordsOf cs).flatMap (' ' :: ·) := by
  induction cs with
  | nil => exact ⟨rfl, rfl⟩
  | cons c cs ih =>
    obtain ⟨hinner, hbehind⟩ := ih
    by_cases hc : isBlank c = true
    · simp [read, wordsOf, leadingWord, consWord, hc, hbehind]
    · simp [read, wordsOf, leadingWord, consWord, hc, hinner]

theorem joinedWords_eq_write (gap : Bool) (cs : List Char) :
    joinedWords cs = write (regap inside none (read gap cs)) := by
  induction cs generalizing gap with
  | nil => rfl
  | cons c cs ih =>
    by_cases hc : isBlank c = true
    · have hwords : wordsOf (c :: cs) = wordsOf cs := by
        simp [wordsOf, leadingWord, consWord, hc]
      rw [joinedWords, hwords, read, if_pos hc]
      exact ih true
    · have hwords : wordsOf (c :: cs) = (c :: (leadingWord cs).1) :: (leadingWord cs).2 := by
        simp [wordsOf, leadingWord, consWord, hc]
      rw [joinedWords, hwords, intercalate_space, read, if_neg hc, regap,
        regap_eq_self (fun _ _ _ => rfl)]
      simp [inside, (write_read cs).1]

/-- Closing gaps before what a character starts. -/
theorem closeBefore_write (stop : List Char → Bool) (before : Option Char) (hgs : Inked gs)
    (htail : closeBefore stop tail = tail) : closeBefore stop (write gs ++ tail) =
      write (regap (fun _ g rest => g.gap && !stop (g.char :: (write rest ++ tail))) before gs) ++
        tail := by
  induction gs generalizing before with
  | nil => exact htail
  | cons g gs ih =>
    obtain ⟨gap, c⟩ := g
    obtain ⟨hc, hgs⟩ := inked_cons.mp hgs
    have hrest := ih (some c) hgs
    have hspace : isBlank ' ' = true := by decide
    cases gap
    · simp [regap, closeBefore, hc, hrest]
    · cases hstop : stop (c :: (write gs ++ tail)) <;>
        simp [regap, closeBefore, hspace, hc, hstop, hrest]

theorem closeAfter_write (before : Option Char) (hgs : Inked gs) :
    closeAfter (· == a) (before == some a) (write gs) =
      write (regap (fun before g _ => g.gap && before != some a) before gs) := by
  induction gs generalizing before with
  | nil => rfl
  | cons g gs ih =>
    obtain ⟨gap, c⟩ := g
    obtain ⟨hc, hgs⟩ := inked_cons.mp hgs
    have hrest := ih (some c) hgs
    rw [show (some c == some a) = (c == a) from rfl] at hrest
    have hspace : isBlank ' ' = true := by decide
    cases gap
    · simp [regap, closeAfter, hc, hrest]
    · by_cases hbefore : before = some a <;>
        simp [regap, closeAfter, write_cons, hspace, hc, hbefore, hrest]

theorem closePairs_write (before : Option Char) (hgs : Inked gs)
    (htail : ∀ opened, closePairs opened tail = tail) :
    closePairs (before == some '[') (write gs ++ tail) =
      write (regap (fun before g _ => g.gap && !(before == some '[' && g.char == ']')) before gs) ++
        tail := by
  induction gs generalizing before with
  | nil => exact htail _
  | cons g gs ih =>
    obtain ⟨gap, c⟩ := g
    obtain ⟨hc, hgs⟩ := inked_cons.mp hgs
    have hrest := ih (some c) hgs
    rw [show (some c == some '[') = (c == '[') from rfl] at hrest
    have hspace : isBlank ' ' = true := by decide
    cases gap
    · simp [regap, closePairs, hc, hrest]
    · by_cases hclose : c = ']'
      · subst hclose
        by_cases hbefore : before = some '[' <;>
          simp_all [regap, closePairs, write_cons]
      · by_cases hbefore : before = some '[' <;>
          simp [regap, closePairs, write_cons, hspace, hc, hbefore, hclose, hrest]

/-- The space behind a comma at the end. -/
def ending (before : Option Char) (gs : List Glyph) : List Char :=
  if (gs.getLast?.map (·.char)).or before = some ',' then [' '] else []

theorem ending_cons (g : Glyph) : ending before (g :: gs) = ending (some g.char) gs := by
  cases gs with
  | nil => rfl
  | cons g' gs => rw [ending, ending, List.getLast?_cons_cons, List.getLast?_cons]; rfl

theorem spaceAfterComma_write (before : Option Char) (gs : List Glyph) : (if before = some ',' then [' '] else []) ++
    spaceAfterComma (write (regap (fun before g _ => g.gap && before != some ',') before gs)) =
      write (regap (fun before g _ => before == some ',' || g.gap) before gs) ++ ending before gs := by
  induction gs generalizing before with
  | nil => cases before <;> simp [regap, ending, spaceAfterComma]
  | cons g gs ih =>
    have hrest := ih (some g.char)
    obtain ⟨gap, c⟩ := g
    rw [ending_cons]
    by_cases hbefore : before = some ',' <;> by_cases hc : c = ',' <;>
      cases gap <;> simp_all [regap, spaceAfterComma, write_cons]

theorem closeBefore_write_char (before : Option Char) (hgs : Inked gs) : closeBefore (startsWith a) (write gs) =
    write (regap (fun _ g _ => g.gap && g.char != a) before gs) := by
  have h := closeBefore_write (startsWith a) before hgs (show closeBefore _ [] = [] from rfl)
  simpa [startsWith, bne] using h

theorem ending_regap {rule : Rule} : ending before (regap rule none gs) = ending before gs := by
  rw [ending, ending, ← List.getLast?_map, ← List.getLast?_map, chars_regap]

theorem closeBefore_ending (stop : List Char → Bool) (h : stop [] = false) :
    closeBefore stop (ending before gs) = ending before gs := by
  unfold ending
  split <;> simp [closeBefore, h]

theorem closePairs_ending (before : Option Char) (gs : List Glyph) (opened : Bool) :
    closePairs opened (ending before gs) = ending before gs := by
  unfold ending
  split <;> simp [closePairs]

theorem tightComma_write (hgs : Inked gs) : tightComma (write gs) =
    write (regap (fun before g _ => before == some ',' || g.gap && g.char != ',') none gs) ++
      ending none gs := by
  have hinked : Inked (regap (fun _ g _ => g.gap && g.char != ',') none gs) := hgs.regap none
  have hcomma := closeAfter_write (a := ',') none hinked
  have hspace := spaceAfterComma_write none (regap (fun _ g _ => g.gap && g.char != ',') none gs)
  rw [tightComma, closeBefore_write_char none hgs]
  exact (congrArg spaceAfterComma hcomma).trans (hspace.trans (by rw [regap_regap, ending_regap]))

end Steps

/-! ## What all steps but the last keep -/

/-- The gap before a character stays if a comma stands before it, or if it is there and neither ends
the text before nor touches an angle bracket or a comma; but none stays inside or before an empty pair
of square brackets. -/
def kept : Rule := fun before g rest =>
  (before == some ',' ||
    (before.isSome && g.gap && before != some '<' && !(['<', '>', ','].contains g.char))) &&
  !(before == some '[' && g.char == ']') &&
  !(g.char == '[' && rest.head?.map (·.char) == some ']')

section Kept

variable {gs gs' : List Glyph} {before : Option Char}

theorem pair_isPrefixOf (c : Char) (gs : List Glyph) :
    ['[', ']'].isPrefixOf (c :: (write gs ++ ending before gs')) =
      (c == '[' && gs.head? == some ⟨false, ']'⟩) := by
  cases gs with
  | nil => unfold ending; split <;> simp [List.isPrefixOf]
  | cons g gs =>
    obtain ⟨gap, d⟩ := g
    cases gap <;> simp [List.isPrefixOf, BEq.comm]

theorem tightPairs_write (hgs : Inked gs) : tightPairs (write gs ++ ending before gs') =
    write (regap (fun before g rest => (g.gap && !(before == some '[' && g.char == ']')) &&
      !(g.char == '[' && rest.head?.map (·.char) == some ']')) none gs) ++ ending before gs' := by
  have hpairs := closePairs_write none hgs (closePairs_ending before gs')
  rw [tightPairs, show false = (none == some '[') from rfl, hpairs,
    closeBefore_write _ none (hgs.regap _) (closeBefore_ending _ rfl), regap_regap]
  congr 3
  funext before' g rest
  rw [pair_isPrefixOf]
  cases rest <;> grind [regap]

end Kept

theorem tightPairs_joinedWords (gap : Bool) (cs : List Char) :
    tightPairs (tightComma (tightClose (tightOpen (joinedWords cs)))) =
      write (regap kept none (read gap cs)) ++ ending none (read gap cs) := by
  have hgs := inked_read gap cs
  rw [joinedWords_eq_write gap, tightOpen, closeBefore_write_char none (hgs.regap _),
    show false = (none == some '<') from rfl, closeAfter_write none ((hgs.regap _).regap _), tightClose,
    closeBefore_write_char none (((hgs.regap _).regap _).regap _),
    tightComma_write ((((hgs.regap _).regap _).regap _).regap _)]
  simp only [regap_regap, ending_regap]
  rw [tightPairs_write (hgs.regap _), regap_regap]
  congr 3
  funext before g rest
  have hnext : ∀ rule c, (regap rule c rest).head?.map (·.char) = rest.head?.map (·.char) := by
    intro rule c
    cases rest <;> rfl
  simp only [hnext, kept, inside]
  grind

/-! ## The last step -/

/-- Two points follow without gaps. -/
def pointsAhead : List Glyph → Bool
  | g :: g' :: _ => !g.gap && g.char == '.' && (!g'.gap && g'.char == '.')
  | _ => false

/-- The gap before three points without gaps between them goes. -/
def beforePoints : Rule := fun _ g rest => g.gap && !(g.char == '.' && pointsAhead rest)

section Points

variable {gs gs' : List Glyph} {before : Option Char} {g : Glyph}

theorem points_isPrefixOf (c : Char) (gs : List Glyph) :
    ['.', '.', '.'].isPrefixOf (c :: (write gs ++ ending before gs')) =
      (c == '.' && pointsAhead gs) := by
  match gs with
  | [] => unfold ending; split <;> simp [List.isPrefixOf, pointsAhead]
  | [⟨true, d⟩] => simp [List.isPrefixOf, pointsAhead]
  | [⟨false, d⟩] => unfold ending; split <;> simp [List.isPrefixOf, pointsAhead]
  | ⟨gap, d⟩ :: ⟨gap', d'⟩ :: rest =>
    cases gap <;> cases gap' <;> simp [List.isPrefixOf, pointsAhead, BEq.comm]

theorem tightPoints_write (hgs : Inked gs) : tightPoints (write gs ++ ending before gs') =
    write (regap beforePoints none gs) ++ ending before gs' := by
  rw [tightPoints, closeBefore_write _ none hgs (closeBefore_ending _ rfl)]
  simp only [points_isPrefixOf]
  rfl

theorem head?_regap (rule : Rule) (before : Option Char) :
    (regap rule before gs).head?.map (·.char) = gs.head?.map (·.char) := by
  cases gs <;> rfl

/-- What stays by the rule stays by it again. -/
theorem kept_kept (rest rest' : List Glyph)
    (h : rest'.head?.map (·.char) = rest.head?.map (·.char)) :
    kept before ⟨kept before g rest, g.char⟩ rest' = kept before g rest := by
  simp only [kept, h]
  grind

theorem kept_point (gap : Bool) (rest : List Glyph) : kept (some '.') ⟨gap, '.'⟩ rest = gap := by
  cases gap <;> rfl

/-- Behind a point the rule keeps the gaps before points. -/
theorem pointsAhead_kept : pointsAhead (regap kept (some '.') gs) = pointsAhead gs := by
  match gs with
  | [] => rfl
  | [g] => rfl
  | ⟨gap, c⟩ :: ⟨gap', c'⟩ :: rest =>
    by_cases hc : c = '.'
    · subst hc
      by_cases hc' : c' = '.'
      · subst hc'
        simp only [regap, pointsAhead, kept_point]
      · simp [regap, pointsAhead, beq_false_of_ne hc']
    · simp [regap, pointsAhead, beq_false_of_ne hc]

theorem pointsAhead_beforePoints (h : pointsAhead gs = true) :
    pointsAhead (regap beforePoints before gs) = true := by
  match gs with
  | ⟨gap, c⟩ :: ⟨gap', c'⟩ :: rest => simp_all [regap, pointsAhead, beforePoints]

theorem beforePoints_point (gap : Bool) (rest : List Glyph) :
    beforePoints before ⟨gap, '.'⟩ rest = (gap && !pointsAhead rest) := rfl

theorem beforePoints_other {c : Char} (hc : c ≠ '.') (gap : Bool) (rest : List Glyph) :
    beforePoints before ⟨gap, c⟩ rest = gap := by
  simp [beforePoints, beq_false_of_ne hc]

/-- The steps before the last change nothing that the last one would not change back. -/
theorem beforePoints_kept (before : Option Char) (gs : List Glyph) :
    regap beforePoints before (regap kept before (regap beforePoints before (regap kept before gs))) =
      regap beforePoints before (regap beforePoints before (regap kept before gs)) := by
  induction gs generalizing before with
  | nil => rfl
  | cons g gs ih =>
    obtain ⟨gap, c⟩ := g
    have hnext : (regap beforePoints (some c) (regap kept (some c) gs)).head?.map (·.char) =
        gs.head?.map (·.char) :=
      (head?_regap beforePoints (some c)).trans (head?_regap kept (some c))
    simp only [regap, ih, List.cons.injEq, Glyph.mk.injEq, and_true]
    by_cases hc : c = '.'
    · subst hc
      simp only [beforePoints_point, pointsAhead_kept]
      cases hahead : pointsAhead (regap beforePoints (some '.') (regap kept (some '.') gs)) with
      | true => simp only [Bool.not_true, Bool.and_false]
      | false =>
        -- then the points were not together before the last step either, and the gap is that of the rule
        have hbehind : pointsAhead gs = false := by
          by_contra hne
          rw [pointsAhead_beforePoints (by simpa [pointsAhead_kept] using hne)] at hahead
          cases hahead
        simp only [hbehind, Bool.not_false, Bool.and_true]
        exact kept_kept (g := ⟨gap, '.'⟩) gs _ hnext
    · simp only [beforePoints_other hc]
      exact kept_kept (g := ⟨gap, c⟩) gs _ hnext

end Points

/-! ## Canonical texts -/

section Canonical

variable {stop : List Char → Bool} {cs : List Char}

/-- The gaps that stay in a canonical text. -/
def settled (gap : Bool) (cs : List Char) : List Glyph :=
  regap beforePoints none (regap kept none (read gap cs))

theorem inked_settled (gap : Bool) (cs : List Char) : Inked (settled gap cs) :=
  ((inked_read gap cs).regap _).regap _

theorem ending_cases (before : Option Char) (gs : List Glyph) :
    ending before gs = [] ∨ ending before gs = [' '] := by
  unfold ending
  split
  · exact .inr rfl
  · exact .inl rfl

theorem normalizeChars_eq (gap : Bool) (cs : List Char) :
    normalizeChars cs = write (settled gap cs) ++ ending none (settled gap cs) := by
  rw [normalizeChars, tightPairs_joinedWords gap, tightPoints_write ((inked_read gap cs).regap _),
    settled, ending_regap, ending_regap]

theorem read_normalizeChars (cs : List Char) : read false (normalizeChars cs) = settled false cs := by
  rw [normalizeChars_eq false cs]
  refine read_write (inked_settled false cs) fun c hc => ?_
  rcases ending_cases none (settled false cs) with hend | hend <;> rw [hend] at hc
  · cases hc
  · exact List.mem_singleton.mp hc ▸ rfl

/-- Of all steps only the last can change a canonical text. -/
theorem normalizeChars_normalizeChars (cs : List Char) :
    normalizeChars (normalizeChars cs) = tightPoints (normalizeChars cs) := by
  rw [normalizeChars_eq false (normalizeChars cs), settled, read_normalizeChars, normalizeChars_eq false cs,
    tightPoints_write (inked_settled false cs), ending_regap, ending_regap]
  unfold settled
  rw [beforePoints_kept]

theorem length_closeBefore_le (stop : List Char → Bool) (cs : List Char) :
    (closeBefore stop cs).length ≤ cs.length := by
  induction cs with
  | nil => exact Nat.le_refl _
  | cons c cs ih =>
    rw [closeBefore]
    split
    · exact Nat.le_succ_of_le ih
    · exact Nat.succ_le_succ ih

/-- Nothing is taken out if no blanks stand before a text at which to stop. -/
theorem closeBefore_eq_self_iff : closeBefore stop cs = cs ↔
    ∀ c rest, c :: rest <:+ cs → isBlank c = true → stop (rest.dropWhile isBlank) = false := by
  induction cs with
  | nil => simp [closeBefore]
  | cons c cs ih =>
    rw [closeBefore]
    split
    · next hstop =>
      simp only [Bool.and_eq_true] at hstop
      refine iff_of_false (fun heq => ?_) fun h => ?_
      · have hle := length_closeBefore_le stop cs
        rw [heq, List.length_cons] at hle
        omega
      · rw [h c cs (List.suffix_refl _) hstop.1] at hstop
        exact absurd hstop.2 Bool.false_ne_true
    · next hstop =>
      rw [List.cons.injEq, ih]
      constructor
      · rintro ⟨-, h⟩ d rest hsuffix hd
        rcases List.suffix_cons_iff.mp hsuffix with heq | hsuffix
        · obtain ⟨rfl, rfl⟩ := List.cons.inj heq
          simpa [hd] using hstop
        · exact h d rest hsuffix hd
      · exact fun h => ⟨rfl, fun d rest hsuffix =>
          h d rest (hsuffix.trans (List.suffix_cons c cs))⟩

/-- Every blank of a written text is a space with no other blank behind it. -/
theorem blank_write {gs : List Glyph} {tail rest : List Char} {c : Char} (hgs : Inked gs)
    (htail : tail = [] ∨ tail = [' ']) (h : c :: rest <:+ write gs ++ tail) (hc : isBlank c = true) :
    c = ' ' ∧ rest.dropWhile isBlank = rest := by
  induction gs with
  | nil =>
    rcases htail with rfl | rfl
    · exact absurd (List.suffix_nil.mp h) (List.cons_ne_nil _ _)
    · rcases List.suffix_cons_iff.mp h with heq | h
      · obtain ⟨rfl, rfl⟩ := List.cons.inj heq
        exact ⟨rfl, rfl⟩
      · exact absurd (List.suffix_nil.mp h) (List.cons_ne_nil _ _)
  | cons g gs ih =>
    obtain ⟨gap, d⟩ := g
    obtain ⟨hd, hgs⟩ := inked_cons.mp hgs
    have hdrop : ∀ more, (d :: more).dropWhile isBlank = d :: more := fun more => by simp [hd]
    have hbehind : c :: rest <:+ d :: (write gs ++ tail) → c = ' ' ∧ rest.dropWhile isBlank = rest := by
      intro h
      rcases List.suffix_cons_iff.mp h with heq | h
      · rw [(List.cons.inj heq).1, hd] at hc
        cases hc
      · exact ih hgs h
    cases gap with
    | false => exact hbehind h
    | true =>
      rcases List.suffix_cons_iff.mp h with heq | h
      · obtain ⟨rfl, rfl⟩ := List.cons.inj heq
        exact ⟨rfl, hdrop _⟩
      · exact hbehind h

/-- A canonical text is its own canonical text unless a space stands before three points in it. -/
theorem normalize_normalize_iff (s : String) : normalize (normalize s) = normalize s ↔
    ¬ [' ', '.', '.', '.'] <:+: (normalize s).toList := by
  have hblank {c : Char} {rest : List Char} (h : c :: rest <:+ normalizeChars s.toList)
      (hc : isBlank c = true) : c = ' ' ∧ rest.dropWhile isBlank = rest := by
    rw [normalizeChars_eq false] at h
    exact blank_write (inked_settled false _) (ending_cases _ _) h hc
  rw [normalize, normalize, String.toList_ofList, normalizeChars_normalizeChars, tightPoints,
    String.ofList_inj, closeBefore_eq_self_iff]
  constructor
  · rintro h ⟨front, back, heq⟩
    have hsuffix : ' ' :: ('.' :: '.' :: '.' :: back) <:+ normalizeChars s.toList := ⟨front, by simpa using heq⟩
    have hstop := h ' ' _ hsuffix rfl
    rw [(hblank hsuffix rfl).2] at hstop
    simp [List.isPrefixOf] at hstop
  · intro h c rest hsuffix hc
    obtain ⟨rfl, hrest⟩ := hblank hsuffix hc
    rw [hrest]
    by_contra hstop
    obtain ⟨back, rfl⟩ : ['.', '.', '.'] <+: rest := by simpa using hstop
    exact h ((List.prefix_append [' ', '.', '.', '.'] back).isInfix.trans hsuffix.isInfix)

end Canonical

end ClassAtlas.Java.TypeText
