import ClassAtlas.Proofs.NormalizedTypes
import Mathlib.Tactic.Tauto

/-! # Respaced type texts

A canonical text keeps all characters of a text that are no blanks, and it does not depend on how long
the blanks between them are, nor on blanks at the places where none are kept or one space always
stands. Blanks before three points are the exception: those that separate the three points from one or two
others, which stand behind a gap themselves, keep that gap from being closed. -/

namespace ClassAtlas.Java.TypeText

open ClassAtlas.Text

/-- There is nothing but blanks. -/
def Blank (cs : List Char) : Prop := ∀ c ∈ cs, isBlank c = true

/-- A place of a text, by what stands before and behind it, where blanks say nothing: at the two ends,
around an opening angle bracket or a comma, before a closing angle bracket, and inside or before a pair
of square brackets with nothing but blanks in it. -/
inductive Idle : List Char → List Char → Prop where
  | start {back : List Char} : Idle [] back
  | finish {front : List Char} : Idle front []
  | beforeMark {front back : List Char} {c : Char} (mark : c ∈ ['<', ',', '>']) : Idle front (c :: back)
  | behindMark {front back : List Char} {c : Char} (mark : c ∈ ['<', ',']) : Idle (front ++ [c]) back
  | insidePair {front back v w : List Char} (before : Blank v) (behind : Blank w) :
      Idle (front ++ '[' :: v) (w ++ ']' :: back)
  | beforePair {front back v : List Char} (inside : Blank v) : Idle front ('[' :: (v ++ ']' :: back))

/-- A text, and the same text with more blanks at an idle place, or with other blanks for some. -/
inductive Respaced : List Char → List Char → Prop where
  | inserted {front back w : List Char} (place : Idle front back) (blank : Blank w) :
      Respaced (front ++ back) (front ++ w ++ back)
  | exchanged {front back v w : List Char} (old : Blank v) (new : Blank w) (hold : v ≠ []) (hnew : w ≠ []) :
      Respaced (front ++ v ++ back) (front ++ w ++ back)

variable {front back v w cs cs' : List Char} {c : Char} {gap : Bool} {gs hs : List Glyph}

/-! ## Reading a text in parts -/

/-- Whether blanks stand at the end of a text; the flag says so for what stands before it. -/
def gapBehind (gap : Bool) (front : List Char) : Bool := front.foldl (fun _ c => isBlank c) gap

theorem gapBehind_concat : gapBehind gap (front ++ [c]) = isBlank c := by
  rw [gapBehind, List.foldl_concat]

theorem read_append (gap : Bool) (front back : List Char) :
    read gap (front ++ back) = read gap front ++ read (gapBehind gap front) back := by
  induction front generalizing gap with
  | nil => rfl
  | cons c front ih =>
    rw [List.cons_append, read, read]
    split
    · rename_i hc
      rw [ih, gapBehind, gapBehind, List.foldl_cons, hc]
    · rename_i hc
      rw [ih, gapBehind, gapBehind, List.foldl_cons, List.cons_append, Bool.eq_false_iff.mpr hc]

theorem read_blank (gap : Bool) (hw : Blank w) : read gap w = [] := by
  induction w generalizing gap with
  | nil => rfl
  | cons c w ih =>
    rw [read, if_pos (hw c List.mem_cons_self)]
    exact ih true fun d hd => hw d (List.mem_cons_of_mem c hd)

theorem gapBehind_blank (gap : Bool) (hw : Blank w) (hne : w ≠ []) : gapBehind gap w = true := by
  rw [← List.dropLast_append_getLast hne, gapBehind_concat]
  exact hw _ (List.getLast_mem hne)

/-- Blanks in the middle count as one gap. -/
theorem read_blank_between (hw : Blank w) (hne : w ≠ []) :
    read gap (front ++ w ++ back) = read gap front ++ read true back := by
  rw [List.append_assoc, read_append, read_append, read_blank _ hw, gapBehind_blank _ hw hne,
    List.nil_append]

theorem read_cons_ink (hc : isBlank c = false) : read gap (c :: cs) = ⟨gap, c⟩ :: read false cs := by
  rw [read, hc, if_neg Bool.false_ne_true]

/-- Blanks after an opening bracket leave it the last character. -/
theorem read_concat_ink (gap : Bool) (front : List Char) (hc : isBlank c = false) (hw : Blank w) :
    ∃ gap', read gap (front ++ c :: w) = read gap front ++ [⟨gap', c⟩] :=
  ⟨gapBehind gap front, by rw [read_append, read_cons_ink hc, read_blank _ hw]⟩

theorem read_blank_append (gap : Bool) (cs : List Char) (hw : Blank w) : ∃ gap', read gap (w ++ cs) = read gap' cs :=
  ⟨gapBehind gap w, by rw [read_append, read_blank _ hw, List.nil_append]⟩

theorem chars_read (gap : Bool) (cs : List Char) :
    (read gap cs).map (·.char) = cs.filter fun c => !isBlank c := by
  induction cs generalizing gap with
  | nil => rfl
  | cons c cs ih =>
    rw [read]
    split
    · rename_i hc
      rw [ih, List.filter_cons_of_neg (by simp [hc])]
    · rename_i hc
      rw [List.map_cons, ih, List.filter_cons_of_pos (by simp [hc])]

/-- The canonical text has the characters of the text that are no blanks, in their order. -/
theorem ink_normalizeChars (cs : List Char) :
    ((normalizeChars cs).filter fun c => !isBlank c) = cs.filter fun c => !isBlank c := by
  rw [← chars_read false, read_normalizeChars, settled, chars_regap, chars_regap, chars_read]

theorem normalizeChars_eq_iff :
    normalizeChars cs = normalizeChars cs' ↔ settled false cs = settled false cs' := by
  constructor
  · intro h
    rw [← read_normalizeChars, h, read_normalizeChars]
  · intro h
    rw [normalizeChars_eq false cs, normalizeChars_eq false cs', h]

/-! ## Gaps that make no difference -/

/-- The last character, or the one before where there is none. -/
def lastChar (before : Option Char) (gs : List Glyph) : Option Char :=
  (gs.getLast?.map (·.char)).or before

theorem lastChar_cons (before : Option Char) (g : Glyph) :
    lastChar before (g :: gs) = lastChar (some g.char) gs := by
  cases gs with
  | nil => rfl
  | cons g' gs => rw [lastChar, lastChar, List.getLast?_cons_cons, List.getLast?_cons]; rfl

theorem lastChar_concat (before : Option Char) (g : Glyph) : lastChar before (gs ++ [g]) = some g.char := by
  simp [lastChar]

/-- What the rule says of a character depends on the next one alone. -/
theorem kept_congr {before : Option Char} {g : Glyph}
    (h : gs.head?.map (·.char) = hs.head?.map (·.char)) : kept before g gs = kept before g hs := by
  simp only [kept, h]

/-- A gap on which the rule does not depend may as well be there as not. -/
theorem regap_kept_gap (before : Option Char) (gap gap' : Bool)
    (h : kept (lastChar before gs) ⟨gap, c⟩ hs = kept (lastChar before gs) ⟨gap', c⟩ hs) :
    regap kept before (gs ++ ⟨gap, c⟩ :: hs) = regap kept before (gs ++ ⟨gap', c⟩ :: hs) := by
  induction gs generalizing before with
  | nil => exact congrArg (⟨·, c⟩ :: regap kept (some c) hs) h
  | cons g gs ih =>
    rw [lastChar_cons] at h
    have hhead : kept before g (gs ++ ⟨gap, c⟩ :: hs) = kept before g (gs ++ ⟨gap', c⟩ :: hs) :=
      kept_congr (by cases gs <;> rfl)
    rw [List.cons_append, List.cons_append, regap, regap, ih (some g.char) h, hhead]

/-- Blanks before a text make a gap before its first character and change nothing else. -/
theorem read_cases (gap : Bool) (cs : List Char) : read gap cs = [] ∧ read true cs = [] ∨
    ∃ gap' c gs, read gap cs = ⟨gap', c⟩ :: gs ∧ read true cs = ⟨true, c⟩ :: gs := by
  induction cs generalizing gap with
  | nil => exact .inl ⟨rfl, rfl⟩
  | cons c cs ih =>
    rw [read, read]
    split
    · exact ih true
    · exact .inr ⟨gap, c, read false cs, rfl, rfl⟩

theorem kept_idle {gap' : Bool} (place : Idle front back) (h : read gap back = ⟨gap', c⟩ :: gs) :
    kept (lastChar none (read false front)) ⟨gap', c⟩ gs =
      kept (lastChar none (read false front)) ⟨true, c⟩ gs := by
  cases place with
  | start => simp [kept, lastChar, read]
  | finish => cases h
  | beforeMark mark =>
    simp only [List.mem_cons, List.not_mem_nil, or_false] at mark
    rcases mark with rfl | rfl | rfl <;>
      (rw [read_cons_ink (by decide)] at h; cases h; simp [kept])
  | @behindMark front _ mark hmark =>
    have hlast : lastChar none (read false (front ++ [mark])) = some mark := by
      obtain ⟨g, hg⟩ := @read_concat_ink [] mark false front
        (by simp only [List.mem_cons, List.not_mem_nil, or_false] at hmark
            rcases hmark with rfl | rfl <;> decide) (fun _ h => by cases h)
      rw [hg, lastChar_concat]
    rw [hlast]
    simp only [List.mem_cons, List.not_mem_nil, or_false] at hmark
    rcases hmark with rfl | rfl <;> simp [kept]
  | @insidePair front back v w hv hw =>
    obtain ⟨g, hg⟩ := @read_concat_ink v '[' false front (by decide) hv
    obtain ⟨g', hg'⟩ := read_blank_append gap (']' :: back) hw
    rw [hg', read_cons_ink (by decide)] at h
    cases h
    rw [hg, lastChar_concat]
    simp [kept]
  | @beforePair _ back v hv =>
    obtain ⟨g', hg'⟩ := read_blank_append false (']' :: back) hv
    rw [read_cons_ink (by decide), hg', read_cons_ink (by decide)] at h
    cases h
    simp [kept]

/-- At an idle place the rule leaves the same gaps whether blanks stand there or not. -/
theorem regap_idle (place : Idle front back) (gap : Bool) :
    regap kept none (read false front ++ read gap back) =
      regap kept none (read false front ++ read true back) := by
  rcases read_cases gap back with ⟨hnone, hnone'⟩ | ⟨gap', c, gs, hread, hread'⟩
  · rw [hnone, hnone']
  · rw [hread, hread']
    exact regap_kept_gap none gap' true (kept_idle place hread)

/-- A canonical text does not change with blanks at idle places, nor with the length of blanks. -/
theorem normalizeChars_respaced (h : Respaced cs cs') : normalizeChars cs' = normalizeChars cs := by
  rw [normalizeChars_eq_iff, settled, settled]
  congr 1
  cases h with
  | @inserted front back w place hw =>
    by_cases hne : w = []
    · rw [hne, List.append_nil]
    · rw [read_blank_between hw hne, read_append, ← regap_idle place]
  | exchanged hv hw hold hnew => rw [read_blank_between hw hnew, read_blank_between hv hold]

/-! ## Blanks before three points -/

/-- A gap stands before one or two points at the end. -/
def Loose (gs : List Glyph) : Prop := [⟨true, '.'⟩] <:+ gs ∨ [⟨true, '.'⟩, ⟨false, '.'⟩] <:+ gs

theorem loose_nil : ¬ Loose [] := by
  simp [Loose]

theorem loose_cons {g : Glyph} : Loose (g :: gs) ↔
    g = ⟨true, '.'⟩ ∧ (gs = [] ∨ gs = [⟨false, '.'⟩]) ∨ Loose gs := by
  simp only [Loose, List.suffix_cons_iff, List.cons.injEq, eq_comm (b := g), eq_comm (b := gs)]
  tauto

theorem pointsAhead_point (h : pointsAhead hs = true) : pointsAhead (⟨gap, '.'⟩ :: hs) = !gap := by
  match hs with
  | g :: g' :: hs =>
    simp only [pointsAhead, Bool.and_eq_true] at h
    simp [pointsAhead, h]

/-- Whether a gap stands before three points matters to the gaps before it exactly if there is one before
the point or two that touch the three. -/
theorem beforePoints_gap (gs : List Glyph) (before : Option Char) (h : pointsAhead hs = true) :
    regap beforePoints before (gs ++ ⟨true, '.'⟩ :: hs) =
      regap beforePoints before (gs ++ ⟨false, '.'⟩ :: hs) ↔ ¬ Loose gs := by
  have hpoint (k : Bool) : pointsAhead (⟨k, '.'⟩ :: hs) = !k := pointsAhead_point h
  induction gs generalizing before with
  | nil => simp [regap, beforePoints_point, h, loose_nil]
  | cons g gs ih =>
    simp only [List.cons_append, regap, List.cons.injEq, ih, loose_cons, not_or]
    refine and_congr_left fun _ => ?_
    -- the rule looks at two characters behind `g`, and so past the gap only if there are fewer in between
    obtain ⟨k, c⟩ := g
    rcases gs with _ | ⟨⟨k', c'⟩, _ | ⟨g', gs⟩⟩
    · by_cases hc : c = '.'
      · cases k <;> simp [hc, beforePoints_point, hpoint]
      · simp [hc, beforePoints_other hc]
    · by_cases hc : c = '.'
      · cases k <;> cases k' <;> by_cases hc' : c' = '.' <;> simp [hc, hc', beforePoints_point, pointsAhead]
      · simp [hc, beforePoints_other hc]
    · simp [beforePoints, pointsAhead]

theorem loose_regap (before : Option Char) : Loose (regap beforePoints before gs) ↔ Loose gs := by
  induction gs generalizing before with
  | nil => rfl
  | cons g gs ih =>
    obtain ⟨k, c⟩ := g
    simp only [regap, loose_cons, ih]
    refine or_congr_left ?_
    rcases gs with _ | ⟨⟨k', c'⟩, _ | ⟨g', gs⟩⟩ <;> simp [regap, beforePoints, pointsAhead]

theorem lastChar_regap {rule : Rule} (before before' : Option Char) :
    lastChar before (regap rule before' gs) = lastChar before gs := by
  rw [lastChar, lastChar, ← List.getLast?_map, ← List.getLast?_map, chars_regap]

theorem lastChar_of_loose (h : Loose gs) : lastChar none gs = some '.' := by
  rcases h with ⟨front, rfl⟩ | ⟨front, rfl⟩ <;> simp [lastChar]

/-- The rule treats a text in parts, unless the second starts with a closing square bracket. -/
theorem regap_kept_append (before : Option Char) (h : hs.head?.map (·.char) ≠ some ']') :
    regap kept before (gs ++ hs) = regap kept before gs ++ regap kept (lastChar before gs) hs := by
  induction gs generalizing before with
  | nil => rfl
  | cons g gs ih =>
    have hhead : kept before g (gs ++ hs) = kept before g gs := by
      cases gs with
      | nil =>
        have hnext : (hs.head?.map (·.char) == some ']') = false := beq_eq_false_iff_ne.mpr h
        simp [kept, hnext]
      | cons g' gs => exact kept_congr rfl
    rw [List.cons_append, regap, regap, List.cons_append, hhead, lastChar_cons, ih (some g.char)]

theorem settled_points (k : Bool) (hs : List Glyph) :
    regap kept none (gs ++ ⟨k, '.'⟩ :: hs) =
      regap kept none gs ++ ⟨kept (lastChar none gs) ⟨k, '.'⟩ hs, '.'⟩ :: regap kept (some '.') hs := by
  rw [regap_kept_append none (by simp), regap]

/-- Blanks before three points change the canonical text exactly if a point or two stand before them, which
stand behind a gap that stays. -/
theorem regap_points (h : pointsAhead hs = true) :
    regap beforePoints none (regap kept none (gs ++ ⟨true, '.'⟩ :: hs)) =
      regap beforePoints none (regap kept none (gs ++ ⟨false, '.'⟩ :: hs)) ↔ ¬ Loose (regap kept none gs) := by
  have hahead : pointsAhead (regap kept (some '.') hs) = true := pointsAhead_kept.trans h
  have hgap := beforePoints_gap (regap kept none gs) none hahead
  rw [settled_points, settled_points]
  constructor
  · intro heq hloose
    -- behind a point the rule keeps the gap as it is
    have hlast : lastChar none gs = some '.' := (lastChar_regap none none).symm.trans (lastChar_of_loose hloose)
    rw [hlast, kept_point, kept_point] at heq
    exact hgap.mp heq hloose
  · intro hloose
    have heq := hgap.mpr hloose
    cases kept (lastChar none gs) ⟨true, '.'⟩ hs <;> cases kept (lastChar none gs) ⟨false, '.'⟩ hs <;>
      first | rfl | exact heq | exact heq.symm

/-- A text ends in a point or two behind a space. -/
def EndsLoose (cs : List Char) : Prop := [' ', '.'] <:+ cs ∨ [' ', '.', '.'] <:+ cs

theorem concat_suffix_concat {α : Type} {xs ys : List α} {x y : α} :
    xs ++ [x] <:+ ys ++ [y] ↔ x = y ∧ xs <:+ ys := by
  rw [List.suffix_concat_iff]
  simp

theorem write_concat_gap : write (gs ++ [⟨true, c⟩]) = write gs ++ [' '] ++ [c] := by
  simp [write]

theorem write_concat_tight : write (gs ++ [⟨false, c⟩]) = write gs ++ [c] := by
  simp [write]

theorem inked_concat {g : Glyph} (h : Inked (gs ++ [g])) : Inked gs ∧ g.char ≠ ' ' := by
  refine ⟨fun g' hg' => h g' (List.mem_append_left _ hg'), fun hspace => ?_⟩
  have hink := h g (by simp)
  rw [hspace] at hink
  exact absurd hink (by decide)

theorem not_space_suffix_write (h : Inked gs) : ¬ [' '] <:+ write gs := by
  rcases List.eq_nil_or_concat' gs with rfl | ⟨gs, ⟨k, c⟩, rfl⟩
  · simp
  · have hc := (inked_concat h).2
    rw [show [' '] = [] ++ [' '] from rfl]
    cases k
    · rw [write_concat_tight, concat_suffix_concat]
      exact fun hsuffix => hc hsuffix.1.symm
    · rw [write_concat_gap, concat_suffix_concat]
      exact fun hsuffix => hc hsuffix.1.symm

theorem point_suffix_write (h : Inked gs) : [' ', '.'] <:+ write gs ↔ [⟨true, '.'⟩] <:+ gs := by
  rcases List.eq_nil_or_concat' gs with rfl | ⟨gs, ⟨k, c⟩, rfl⟩
  · simp
  · have hspace := not_space_suffix_write (inked_concat h).1
    rw [show [' ', '.'] = [' '] ++ ['.'] from rfl, show [(⟨true, '.'⟩ : Glyph)] = [] ++ [⟨true, '.'⟩] from rfl,
      @concat_suffix_concat _ _ gs]
    cases k
    · rw [write_concat_tight, concat_suffix_concat]
      simp [hspace]
    · rw [write_concat_gap, concat_suffix_concat]
      simp [List.suffix_append]

theorem points_suffix_write (h : Inked gs) :
    [' ', '.', '.'] <:+ write gs ↔ [⟨true, '.'⟩, ⟨false, '.'⟩] <:+ gs := by
  rcases List.eq_nil_or_concat' gs with rfl | ⟨gs, ⟨k, c⟩, rfl⟩
  · simp
  · rw [show [' ', '.', '.'] = [' ', '.'] ++ ['.'] from rfl,
      show [(⟨true, '.'⟩ : Glyph), ⟨false, '.'⟩] = [⟨true, '.'⟩] ++ [⟨false, '.'⟩] from rfl,
      @concat_suffix_concat _ _ gs]
    cases k
    · rw [write_concat_tight, concat_suffix_concat, point_suffix_write (inked_concat h).1]
      simp
    · rw [write_concat_gap, concat_suffix_concat, show [' ', '.'] = [' '] ++ ['.'] from rfl,
        concat_suffix_concat]
      simp

theorem endsLoose_write (h : Inked gs) : EndsLoose (write gs ++ ending none gs) ↔ Loose gs := by
  by_cases hcomma : lastChar none gs = some ','
  · have hend : ending none gs = [' '] := if_pos hcomma
    refine iff_of_false ?_ fun hloose => ?_
    · rw [hend, EndsLoose, show [' ', '.'] = [' '] ++ ['.'] from rfl,
        show [' ', '.', '.'] = [' ', '.'] ++ ['.'] from rfl, concat_suffix_concat, concat_suffix_concat]
      simp
    · rw [lastChar_of_loose hloose] at hcomma
      cases hcomma
  · have hend : ending none gs = [] := if_neg hcomma
    rw [hend, List.append_nil, EndsLoose, point_suffix_write h, points_suffix_write h, Loose]

theorem endsLoose_normalizeChars (cs : List Char) :
    EndsLoose (normalizeChars cs) ↔ Loose (regap kept none (read false cs)) := by
  rw [normalizeChars_eq false cs, endsLoose_write (inked_settled false cs), settled, loose_regap]

theorem gapBehind_eq (front : List Char) : gapBehind false front = front.getLast?.any isBlank := by
  rcases List.eq_nil_or_concat' front with rfl | ⟨front, c, rfl⟩
  · rfl
  · rw [gapBehind_concat, List.getLast?_concat, Option.any_some]

/-- Blanks before three points make no difference if others stand there already, or if no point or two
stand before them behind a gap. -/
theorem normalizeChars_points (hw : Blank w) (hne : w ≠ []) :
    normalizeChars (front ++ w ++ '.' :: '.' :: '.' :: back) =
        normalizeChars (front ++ '.' :: '.' :: '.' :: back) ↔
      front.getLast?.any isBlank = true ∨ ¬ EndsLoose (normalizeChars front) := by
  have hink : isBlank '.' = false := by decide
  have hpoints (gap : Bool) : read gap ('.' :: '.' :: '.' :: back) =
      ⟨gap, '.'⟩ :: read false ('.' :: '.' :: back) := read_cons_ink hink
  have hahead : pointsAhead (read false ('.' :: '.' :: back)) = true := by
    rw [read_cons_ink hink, read_cons_ink hink]
    rfl
  rw [normalizeChars_eq_iff, settled, settled, read_blank_between hw hne, read_append false front, hpoints,
    hpoints, gapBehind_eq, endsLoose_normalizeChars]
  cases front.getLast?.any isBlank
  · rw [regap_points hahead]
    simp
  · simp

/-! ## Canonical texts -/

/-- The canonical text has the characters of the text that are no blanks, and it is the same for every
text that differs in blanks at idle places or in the length of blanks. Before three points, blanks make
no difference either unless a point or two, with no blank behind them, stand before the three behind a
gap that stays. And a canonical text is its own canonical text unless a space stands before three
points in it. -/
theorem normalize_canonical (s : String) :
    ((normalize s).toList.filter fun c => !isBlank c) = (s.toList.filter fun c => !isBlank c) ∧
      (∀ s' : String, Respaced s.toList s'.toList → normalize s' = normalize s) ∧
      (∀ front w back : List Char, Blank w → w ≠ [] → s.toList = front ++ '.' :: '.' :: '.' :: back →
        (normalize (String.ofList (front ++ w ++ '.' :: '.' :: '.' :: back)) = normalize s ↔
          front.getLast?.any isBlank = true ∨ ¬ EndsLoose (normalizeChars front))) ∧
      (normalize (normalize s) = normalize s ↔ ¬ [' ', '.', '.', '.'] <:+: (normalize s).toList) := by
  refine ⟨?_, fun s' h => ?_, fun front w back hw hne hs => ?_, normalize_normalize_iff s⟩
  · rw [normalize, String.toList_ofList, ink_normalizeChars]
  · rw [normalize, normalize, normalizeChars_respaced h]
  · rw [normalize, normalize, String.ofList_inj, String.toList_ofList, hs]
    exact normalizeChars_points hw hne

/-- A blank at the start of a text makes no difference. One behind the first of four points that stand behind
a gap does: it leaves a text that is not its own canonical text. -/
theorem normalize_canonical_points :
    Respaced "a ....".toList " a ....".toList ∧ normalize " a ...." = normalize "a ...." ∧
      EndsLoose (normalizeChars "a .".toList) ∧ normalize "a . ..." ≠ normalize "a ...." ∧
      normalize (normalize "a . ...") ≠ normalize "a . ..." := by
  have hspace : Blank [' '] := List.forall_mem_singleton.mpr (by decide)
  have hstart : Respaced "a ....".toList " a ....".toList :=
    @Respaced.inserted [] "a ....".toList [' '] .start hspace
  have hloose : EndsLoose (normalizeChars "a .".toList) := .inl (by decide)
  refine ⟨hstart, (normalize_canonical "a ....").2.1 " a ...." hstart, hloose, fun h => ?_, fun h => ?_⟩
  · have hiff := (normalize_canonical "a ....").2.2.1 "a .".toList [' '] [] hspace (by decide) (by decide)
    rcases hiff.mp h with hblank | hfirm
    · exact absurd hblank (by decide)
    · exact hfirm hloose
  · exact (normalize_canonical "a . ...").2.2.2.mp h (by decide)

end ClassAtlas.Java.TypeText
