import ClassAtlas.Proofs.MembersByName
import ClassAtlas.Proofs.NormalizedTypes

/-! # Scanned names

A scan cuts a text into names and what stands between them. The cut is the only one where a name is a
sequence of identifiers with single points between them, no text that could go on with the name stands
behind it, and no character that could start a name is left between the names. The names that a text
refers to are those of the cut, less the reserved ones, each at its first place.

The gaps that the canonical text of a type changes touch no name: a gap goes or comes only where one of its
two neighbours cannot be part of a name, or before three points, where no name goes on. So the scan finds
the same names in it. -/

namespace ClassAtlas.Java.TypeNames

open TypeText (Glyph Rule regap kept beforePoints pointsAhead settled)

variable {cs name back skipped : List Char} {names : List (List Char)} {c b : Char}

/-! ## The cut of a text into names -/

/-- A text that stands behind a name goes on with it. -/
def goesOn : List Char → Bool
  | [] => false
  | c :: rest => isPart c || (c == '.' && continues rest)

/-- A character that may start a name, and further characters of a name. -/
def IsIdentifier (cs : List Char) : Prop :=
  ∃ c rest, cs = c :: rest ∧ isStart c = true ∧ ∀ x ∈ rest, isPart x = true

/-- Identifiers with single points between them. -/
inductive Dotted : List Char → Prop where
  | one {word : List Char} (identifier : IsIdentifier word) : Dotted word
  | more {word rest : List Char} (identifier : IsIdentifier word) (others : Dotted rest) :
      Dotted (word ++ '.' :: rest)

/-- A text in order: what holds no start of a name, a name with which the text behind does not go on, and
so forth. -/
inductive Cut : List Char → List (List Char) → Prop where
  | done {skipped : List Char} (free : ∀ c ∈ skipped, isStart c = false) : Cut skipped []
  | name {skipped name back : List Char} {names : List (List Char)}
      (free : ∀ c ∈ skipped, isStart c = false) (dotted : Dotted name) (whole : goesOn back = false)
      (others : Cut back names) : Cut (skipped ++ name ++ back) (name :: names)

theorem restOfName_stop (h : goesOn cs = false) : restOfName cs = ([], cs) := by
  cases cs with
  | nil => rfl
  | cons c rest => exact if_neg (Bool.eq_false_iff.mp h)

theorem restOfName_go (h : goesOn (c :: cs) = true) :
    restOfName (c :: cs) = (c :: (restOfName cs).1, (restOfName cs).2) :=
  if_pos h

theorem goesOn_restOfName (cs : List Char) : goesOn (restOfName cs).2 = false := by
  induction cs with
  | nil => rfl
  | cons c rest ih =>
    cases hgo : goesOn (c :: rest) with
    | true => rwa [restOfName_go hgo]
    | false => rwa [restOfName_stop hgo]

/-- What the scan takes behind identifiers makes identifiers with points between them: it goes on with the
last identifier, or it starts another one behind a point. -/
theorem dotted_restOfName (cs : List Char) :
    (∀ word, IsIdentifier word → Dotted (word ++ (restOfName cs).1)) ∧
      (continues cs = true → Dotted (restOfName cs).1) := by
  induction cs with
  | nil => exact ⟨fun word h => by rw [restOfName, List.append_nil]; exact .one h, fun h => by cases h⟩
  | cons c rest ih =>
    constructor
    · rintro word ⟨first, others, rfl, hstart, hparts⟩
      cases hgo : goesOn (c :: rest) with
      | false => rw [restOfName_stop hgo, List.append_nil]; exact .one ⟨first, others, rfl, hstart, hparts⟩
      | true =>
        rw [restOfName_go hgo]
        rcases Bool.or_eq_true_iff.mp hgo with hpart | hpoint
        · have hlonger : IsIdentifier (first :: others ++ [c]) :=
            ⟨first, others ++ [c], rfl, hstart, by simpa [or_imp, forall_and, hpart] using hparts⟩
          simpa using ih.1 _ hlonger
        · obtain ⟨hpoint, hnext⟩ := Bool.and_eq_true_iff.mp hpoint
          cases beq_iff_eq.mp hpoint
          exact .more ⟨first, others, rfl, hstart, hparts⟩ (ih.2 hnext)
    · intro hstart
      have hgo : goesOn (c :: rest) = true := Bool.or_eq_true_iff.mpr (.inl (isPart_of_isStart hstart))
      rw [restOfName_go hgo]
      exact ih.1 [c] ⟨c, [], rfl, hstart, fun x hx => by cases hx⟩

theorem Cut.skip (h : Cut cs names) (hc : isStart c = false) : Cut (c :: cs) names := by
  cases h with
  | done hfree => exact .done (List.forall_mem_cons.mpr ⟨hc, hfree⟩)
  | name hfree hdotted hwhole hothers =>
    exact .name (List.forall_mem_cons.mpr ⟨hc, hfree⟩) hdotted hwhole hothers

/-- The scan cuts the text. -/
theorem cut_scan (cs : List Char) : Cut cs (scan cs) := by
  fun_induction scan cs with
  | case1 => exact .done fun c hc => by cases hc
  | case2 c rest hstart ih =>
    have hname : Dotted (c :: (restOfName rest).1) :=
      (dotted_restOfName rest).1 [c] ⟨c, [], rfl, hstart, fun x hx => by cases hx⟩
    have hcut := @Cut.name [] _ _ _ (fun x hx => by cases hx) hname (goesOn_restOfName rest) ih
    rwa [List.nil_append, List.cons_append, restOfName_append] at hcut
  | case3 c rest hstart ih => exact ih.skip (Bool.eq_false_iff.mpr hstart)

theorem scan_skip (h : ∀ c ∈ skipped, isStart c = false) : scan (skipped ++ cs) = scan cs := by
  induction skipped with
  | nil => rfl
  | cons c skipped ih =>
    obtain ⟨hc, hskipped⟩ := List.forall_mem_cons.mp h
    rw [List.cons_append, scan, if_neg (Bool.eq_false_iff.mp hc), ih hskipped]

theorem restOfName_parts (h : ∀ x ∈ name, isPart x = true) :
    restOfName (name ++ cs) = (name ++ (restOfName cs).1, (restOfName cs).2) := by
  induction name with
  | nil => rfl
  | cons c name ih =>
    obtain ⟨hc, hname⟩ := List.forall_mem_cons.mp h
    have hgo : goesOn (c :: (name ++ cs)) = true := Bool.or_eq_true_iff.mpr (.inl hc)
    rw [List.cons_append, restOfName_go hgo, ih hname, List.cons_append]

/-- The scan takes the whole of a name with which the text does not go on. -/
theorem restOfName_dotted (h : Dotted name) (hwhole : goesOn back = false) :
    ∃ c rest, name = c :: rest ∧ isStart c = true ∧ restOfName (rest ++ back) = (rest, back) := by
  induction h with
  | one hword =>
    obtain ⟨c, rest, rfl, hstart, hparts⟩ := hword
    exact ⟨c, rest, rfl, hstart, by rw [restOfName_parts hparts, restOfName_stop hwhole, List.append_nil]⟩
  | more hword hothers ih =>
    obtain ⟨c, rest, rfl, hstart, hparts⟩ := hword
    obtain ⟨first, others, rfl, hfirst, hrest⟩ := ih
    have hpoint : goesOn ('.' :: first :: (others ++ back)) = true := hfirst
    have hnext : goesOn (first :: (others ++ back)) = true :=
      Bool.or_eq_true_iff.mpr (.inl (isPart_of_isStart hfirst))
    refine ⟨c, rest ++ '.' :: first :: others, rfl, hstart, ?_⟩
    rw [List.append_assoc, restOfName_parts hparts, List.cons_append, List.cons_append,
      restOfName_go hpoint, restOfName_go hnext, hrest]

/-- There is one cut of a text, and the scan finds it. -/
theorem cut_iff : Cut cs names ↔ scan cs = names := by
  constructor
  · intro h
    induction h with
    | @done skipped hfree => rw [← List.append_nil skipped, scan_skip hfree, scan]
    | name hfree hdotted hwhole _ ih =>
      obtain ⟨c, rest, rfl, hstart, hrest⟩ := restOfName_dotted hdotted hwhole
      rw [List.append_assoc, scan_skip hfree, List.cons_append, scan, if_pos hstart, hrest, ih]
  · rintro rfl
    exact cut_scan cs

/-- A name of the cut stands in the text, which does not go on with it. -/
theorem Cut.whole (h : Cut cs names) (hname : name ∈ names) :
    Dotted name ∧ ∃ front back, cs = front ++ name ++ back ∧ goesOn back = false := by
  induction h with
  | done => cases hname
  | @name skipped first behind _ _ hdotted hwhole _ ih =>
    rcases List.mem_cons.mp hname with rfl | hname
    · exact ⟨hdotted, skipped, behind, rfl, hwhole⟩
    · obtain ⟨hother, front, back, rfl, hback⟩ := ih hname
      exact ⟨hother, skipped ++ first ++ front, back, by simp, hback⟩

/-! ## Names at their first place -/

section Distinct

variable {α : Type} [BEq α] [LawfulBEq α] {xs : List α} {x y : α}

theorem distinct_concat (xs : List α) (x : α) :
    distinct (xs ++ [x]) = if x ∈ xs then distinct xs else distinct xs ++ [x] := by
  have hseen : (xs.foldl (fun seen x => if seen.contains x then seen else x :: seen) []).contains x =
      decide (x ∈ xs) := by
    rw [Bool.eq_iff_iff, List.contains_iff_mem, mem_foldl_distinct]
    simp
  rw [distinct, List.foldl_concat, hseen]
  by_cases hx : x ∈ xs <;> simp [hx, distinct]

/-- The items stand in the order of their first places. -/
theorem pairwise_distinct (xs : List α) :
    (distinct xs).Pairwise fun x y => xs.idxOf x < xs.idxOf y := by
  induction xs using List.reverseRecOn with
  | nil => exact .nil
  | append_singleton xs x ih =>
    have hsame : ∀ y ∈ distinct xs, (xs ++ [x]).idxOf y = xs.idxOf y := fun y hy =>
      List.idxOf_append_of_mem (mem_distinct.mp hy)
    have hbefore : (distinct xs).Pairwise fun y z => (xs ++ [x]).idxOf y < (xs ++ [x]).idxOf z :=
      ih.imp_of_mem fun hy hz h => by rwa [hsame _ hy, hsame _ hz]
    -- one more item is there already, or it comes last in both lists
    rw [distinct_concat]
    split
    · exact hbefore
    · rename_i hx
      refine List.pairwise_append.mpr ⟨hbefore, List.pairwise_singleton _ _, fun y hy z hz => ?_⟩
      obtain rfl := List.mem_singleton.mp hz
      rw [hsame y hy, List.idxOf_append_of_notMem hx]
      exact Nat.lt_add_right _ (List.idxOf_lt_length_of_mem (mem_distinct.mp hy))

/-- Items that are left out change no order among the others. -/
theorem idxOf_filter_lt {p : α → Bool} (hx : p x = true) (hy : p y = true) :
    (xs.filter p).idxOf x < (xs.filter p).idxOf y ↔ xs.idxOf x < xs.idxOf y := by
  induction xs with
  | nil => rfl
  | cons a xs ih =>
    rw [List.filter_cons]
    split
    · simp only [List.idxOf_cons, cond_eq_ite]
      grind
    · rename_i ha
      have hne : ∀ z, p z = true → (a == z) = false := by
        rintro z hz
        refine beq_false_of_ne ?_
        rintro rfl
        exact ha hz
      simp only [List.idxOf_cons, hne x hx, hne y hy, cond_false, ih]
      omega

end Distinct

/-! ## Gaps and names -/

section Gaps

variable {gap : Bool} {gs rest : List Glyph} {before : Option Char}

/-- The characters of names. -/
def inName (c : Char) : Bool := isPart c || c == '.'

/-- The first character may start a name, and no blanks stand before it. -/
def startsTight : List Glyph → Bool
  | [] => false
  | g :: _ => !g.gap && isStart g.char

/-- A character goes on with no name that the one before is part of: blanks stand between them, or one of
the two is in no name. -/
def apart : Rule := fun before g rest =>
  !before.any inName || g.gap || !(isPart g.char || (g.char == '.' && startsTight rest))

/-- The names, if the gaps are those of `apart`. -/
def namesOf : List Glyph → List (List Char)
  | [] => []
  | g :: rest =>
    if isStart g.char then
      (g.char :: (rest.takeWhile (!·.gap)).map (·.char)) :: namesOf (rest.dropWhile (!·.gap))
    else namesOf rest
termination_by gs => gs.length
decreasing_by
  all_goals
    have := (List.dropWhile_sublist (l := rest) (p := (!·.gap))).length_le
    simp only [List.length_cons]
    omega

theorem inName_of_isPart (h : isPart c = true) : inName c = true := Bool.or_eq_true_iff.mpr (.inl h)

theorem inName_of_goesOn (h : goesOn (c :: cs) = true) : inName c = true := by
  rcases Bool.or_eq_true_iff.mp h with hpart | hpoint
  · exact inName_of_isPart hpart
  · exact Bool.or_eq_true_iff.mpr (.inr (Bool.and_eq_true_iff.mp hpoint).1)

theorem isPart_of_isBlank (h : Text.isBlank c = true) : isPart c = false := by
  refine Bool.eq_false_iff.mpr fun hpart => ?_
  rw [(plain_of_isPart hpart).blank] at h
  cases h

theorem isStart_of_not_isPart (h : isPart c = false) : isStart c = false := by
  refine Bool.eq_false_iff.mpr fun hstart => ?_
  rw [isPart_of_isStart hstart] at h
  cases h

theorem goesOn_of_isBlank (h : Text.isBlank c = true) : goesOn (c :: cs) = false := by
  have hpoint : (c == '.') = false := beq_false_of_ne (by rintro rfl; exact absurd h (by decide))
  rw [goesOn, isPart_of_isBlank h, hpoint, Bool.false_and, Bool.or_false]

/-- Behind blanks the first character has a gap. -/
theorem gap_of_head?_read (cs : List Char) : ∀ g ∈ (TypeText.read true cs).head?, g.gap = true := by
  induction cs with
  | nil => exact fun g hg => by cases hg
  | cons c rest ih =>
    rw [TypeText.read]
    split
    · exact ih
    · exact fun g hg => by cases hg; rfl

theorem gap_of_head?_regap (h : ∀ g ∈ gs.head?, g.gap = true) :
    ∀ g ∈ (regap apart before gs).head?, g.gap = true := by
  cases gs with
  | nil => exact fun g hg => by cases hg
  | cons g rest =>
    intro g' hg'
    cases hg'
    rw [apart, h g rfl, Bool.or_true, Bool.true_or]

theorem startsTight_read (cs : List Char) : startsTight (TypeText.read false cs) = continues cs := by
  cases cs with
  | nil => rfl
  | cons c rest =>
    rw [TypeText.read, continues]
    split
    · rename_i hblank
      rw [isStart_of_not_isPart (isPart_of_isBlank hblank)]
      cases hread : TypeText.read true rest with
      | nil => rfl
      | cons g gs => rw [startsTight, gap_of_head?_read rest g (by rw [hread]; rfl), Bool.not_true, Bool.false_and]
    · rfl

/-- Behind a character of a name, the rest of the name goes up to the next gap and no further. -/
theorem regap_apart_read (hb : inName b = true) (cs : List Char) :
    ∃ before gap, regap apart (some b) (TypeText.read false cs) =
        (restOfName cs).1.map (⟨false, ·⟩) ++ regap apart before (TypeText.read gap (restOfName cs).2) ∧
      ∀ g ∈ (regap apart before (TypeText.read gap (restOfName cs).2)).head?, g.gap = true := by
  induction cs generalizing b with
  | nil => exact ⟨some b, false, rfl, fun g hg => by cases hg⟩
  | cons c rest ih =>
    -- blanks end the name for the scan, and for the glyphs they are the gap before the next one
    by_cases hblank : Text.isBlank c = true
    · rw [restOfName_stop (goesOn_of_isBlank hblank)]
      refine ⟨some b, false, rfl, ?_⟩
      rw [TypeText.read, if_pos hblank]
      exact gap_of_head?_regap (gap_of_head?_read rest)
    · have hread : regap apart (some b) (TypeText.read false (c :: rest)) =
          ⟨!goesOn (c :: rest), c⟩ :: regap apart (some c) (TypeText.read false rest) := by
        rw [TypeText.read, if_neg hblank, regap, apart, startsTight_read, Option.any_some, hb]
        rfl
      cases hgo : goesOn (c :: rest) with
      | false =>
        rw [restOfName_stop hgo]
        refine ⟨some b, false, rfl, fun g hg => ?_⟩
        rw [hread, hgo] at hg
        cases hg
        rfl
      | true =>
        obtain ⟨before, gap, hrest, hstop⟩ := ih (inName_of_goesOn hgo)
        rw [restOfName_go hgo]
        exact ⟨before, gap, by rw [hread, hgo, hrest]; rfl, hstop⟩

/-- Tight characters before a gap are those up to the first gap. -/
theorem span_tight (word : List Char) (h : ∀ g ∈ gs.head?, g.gap = true) :
    ((word.map (Glyph.mk false) ++ gs).takeWhile (!·.gap)).map (·.char) = word ∧
      (word.map (Glyph.mk false) ++ gs).dropWhile (!·.gap) = gs := by
  induction word with
  | nil =>
    cases gs with
    | nil => exact ⟨rfl, rfl⟩
    | cons g rest => simp [h g rfl]
  | cons c word ih => simpa using ih

/-- The scan depends on the characters and the gaps of `apart` alone. -/
theorem scan_eq_namesOf (before : Option Char) (gap : Bool) (cs : List Char) :
    scan cs = namesOf (regap apart before (TypeText.read gap cs)) := by
  fun_induction scan cs generalizing before gap with
  | case1 => rw [TypeText.read, regap, namesOf]
  | case2 c rest hstart ih =>
    have hpart := isPart_of_isStart hstart
    obtain ⟨before', gap', hrest, hstop⟩ := regap_apart_read (inName_of_isPart hpart) rest
    obtain ⟨htaken, hleft⟩ := span_tight (restOfName rest).1 hstop
    rw [TypeText.read, (plain_of_isPart hpart).blank, if_neg Bool.false_ne_true, regap, namesOf, if_pos hstart,
      hrest, htaken, hleft, ih before' gap']
  | case3 c rest hstart ih =>
    rw [TypeText.read]
    split
    · exact ih before true
    · rw [regap, namesOf, if_neg hstart]
      exact ih (some c) false

/-- Gaps that a rule changes make no difference if those of `apart` stay. -/
theorem regap_apart_regap {rule : Rule} (before : Option Char)
    (h : ∀ before g rest, apart before ⟨rule before g rest, g.char⟩ (regap rule (some g.char) rest) =
      apart before g rest) : regap apart before (regap rule before gs) = regap apart before gs := by
  rw [TypeText.regap_regap]
  congr
  funext before g rest
  exact h before g rest

/-- Between two characters of names the steps before the last leave the gaps as they are. -/
theorem kept_of_inName (hb : inName b = true) (hc : inName c = true) : kept (some b) ⟨gap, c⟩ rest = gap := by
  have hne {x y : Char} (hx : inName x = true) (hy : inName y = false) : x ≠ y := by
    rintro rfl
    rw [hx] at hy
    cases hy
  have hcomma : inName ',' = false := by decide
  have hopen : inName '<' = false := by decide
  have hclose : inName '>' = false := by decide
  have hbracket : inName '[' = false := by decide
  have hmark : ['<', '>', ','].contains c = false := by
    simp [hne hc hopen, hne hc hclose, hne hc hcomma]
  simp only [kept, hmark]
  simp [bne, beq_false_of_ne (hne hb hcomma), beq_false_of_ne (hne hb hopen),
    beq_false_of_ne (hne hb hbracket), beq_false_of_ne (hne hc hbracket)]

theorem startsTight_kept : startsTight (regap kept (some '.') gs) = startsTight gs := by
  cases gs with
  | nil => rfl
  | cons g rest =>
    rw [regap, startsTight, startsTight]
    cases hstart : isStart g.char with
    | false => rw [Bool.and_false, Bool.and_false]
    | true =>
      have hin : inName g.char = true := inName_of_isPart (isPart_of_isStart hstart)
      rw [show g = ⟨g.gap, g.char⟩ from rfl, kept_of_inName (by decide) hin]

theorem startsTight_beforePoints : startsTight (regap beforePoints before gs) = startsTight gs := by
  cases gs with
  | nil => rfl
  | cons g rest =>
    rw [regap, startsTight, startsTight]
    by_cases hpoint : g.char = '.'
    · rw [hpoint, show isStart '.' = false by decide, Bool.and_false, Bool.and_false]
    · rw [show g = ⟨g.gap, g.char⟩ from rfl, TypeText.beforePoints_other hpoint]

theorem startsTight_of_pointsAhead (h : pointsAhead gs = true) : startsTight gs = false := by
  match gs with
  | g :: g' :: rest =>
    simp only [pointsAhead, Bool.and_eq_true, beq_iff_eq] at h
    rw [startsTight, h.1.2, show isStart '.' = false by decide, Bool.and_false]

theorem apart_kept (before : Option Char) (g : Glyph) (rest : List Glyph) :
    apart before ⟨kept before g rest, g.char⟩ (regap kept (some g.char) rest) = apart before g rest := by
  obtain ⟨gap, c⟩ := g
  match before with
  | none => rfl
  | some b =>
    cases hb : inName b with
    | false => simp only [apart, Option.any_some, hb, Bool.not_false, Bool.true_or]
    | true =>
      by_cases hpoint : c = '.'
      · subst hpoint
        rw [kept_of_inName hb (by decide), apart, apart, startsTight_kept]
      · cases hpart : isPart c with
        | false => simp [apart, hpart, beq_false_of_ne hpoint]
        | true => simp only [apart, kept_of_inName hb (inName_of_isPart hpart), hpart, Bool.true_or]

theorem apart_beforePoints (before : Option Char) (g : Glyph) (rest : List Glyph) :
    apart before ⟨beforePoints before g rest, g.char⟩ (regap beforePoints (some g.char) rest) =
      apart before g rest := by
  obtain ⟨gap, c⟩ := g
  rw [apart, apart, startsTight_beforePoints]
  by_cases hpoint : c = '.'
  · subst hpoint
    rw [TypeText.beforePoints_point]
    -- where the gap goes, another point follows, and no name goes on with two points
    cases hahead : pointsAhead rest with
    | false => rw [Bool.not_false, Bool.and_true]
    | true => simp [startsTight_of_pointsAhead hahead, point_isPart]
  · rw [TypeText.beforePoints_other hpoint]

/-- The canonical text of a type holds the same names. -/
theorem scan_normalizeChars (cs : List Char) : scan (TypeText.normalizeChars cs) = scan cs := by
  rw [scan_eq_namesOf none false, TypeText.read_normalizeChars, settled,
    regap_apart_regap none apart_beforePoints, regap_apart_regap none apart_kept, ← scan_eq_namesOf]

end Gaps

/-! ## The names that a text refers to -/

theorem isReserved_eq_false {name : String} : isReserved name = false ↔
    name ∉ primitives ∧ name ∉ [voidWord, "extends", "super", "final"] := by
  rw [isReserved, Bool.or_eq_false_iff, Bool.or_eq_false_iff, List.mem_cons, not_or, and_assoc]
  simp [typeWords, beq_eq_false_iff_ne]

/-- A text refers to the same names as its canonical text. They are the names of its one cut that are not
reserved, without duplicates and in the order of their first places in it, and each is a whole sequence of
identifiers somewhere in the text. -/
theorem ofText_normalize (s : String) :
    ofText (TypeText.normalize s) = ofText s ∧
      ∃ found : List String, (∀ names, Cut s.toList names ↔ names = found.map String.toList) ∧
        (ofText s).Nodup ∧
        (∀ name, name ∈ ofText s ↔
          name ∈ found ∧ name ∉ primitives ∧ name ∉ ["void", "extends", "super", "final"]) ∧
        ((ofText s).Pairwise fun x y => found.idxOf x < found.idxOf y) ∧
        ∀ name ∈ ofText s, Dotted name.toList ∧
          ∃ front back, s.toList = front ++ name.toList ++ back ∧ goesOn back = false := by
  have hfound : ((scan s.toList).map String.ofList).map String.toList = scan s.toList := by
    rw [List.map_map, show String.toList ∘ String.ofList = id from funext fun _ => String.toList_ofList,
      List.map_id]
  have hfree {name : String} (h : name ∈ ofText s) : (!isReserved name) = true := by
    rw [(mem_ofText.mp h).2]
    rfl
  have horder : (ofText s).Pairwise fun x y =>
      ((scan s.toList).map String.ofList).idxOf x < ((scan s.toList).map String.ofList).idxOf y :=
    (pairwise_distinct _).imp_of_mem fun hx hy h =>
      (idxOf_filter_lt (p := fun name => !isReserved name) (hfree hx) (hfree hy)).mp h
  refine ⟨?_, (scan s.toList).map String.ofList, fun names => ?_, ?_, fun name => ?_, horder, fun name h => ?_⟩
  · rw [ofText, ofText, TypeText.normalize, String.toList_ofList, scan_normalizeChars]
  · rw [cut_iff, hfound, eq_comm]
  · exact horder.imp fun hlt heq => absurd (heq ▸ hlt) (Nat.lt_irrefl _)
  · rw [ofText, mem_distinct, List.mem_filter, Bool.not_eq_true', isReserved_eq_false, voidWord]
  · exact (cut_scan s.toList).whole (mem_ofText.mp h).1

end ClassAtlas.Java.TypeNames
