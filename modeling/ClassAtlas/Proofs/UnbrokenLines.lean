import ClassAtlas.Proofs.PictureOutlines
import Mathlib.Algebra.BigOperators.Group.List.Basic
import Mathlib.Algebra.GroupWithZero.Nat
import Mathlib.Data.Finset.Card

/-! # Lines that no text breaks

However the texts of a diagram look, they stay on their lines and within their quotes. The lines of a
picture, parted at every character that any reader takes for the end of a line, are those that were
written: their number follows from the shape of the diagram alone, and quotes stand only around the name
of a classifier in its header and around the multiplicities of a relationship. -/

namespace ClassAtlas.PlantUml

/-! ## Parting a text into lines -/

/-- Characters that end a line: feeds and returns, the separators of files, groups and records, next line,
and the separators of lines and paragraphs. -/
def isLineBreak (c : Char) : Bool :=
  let n := c.toNat
  (10 ≤ n && n ≤ 13) || (0x1C ≤ n && n ≤ 0x1E) || n == 0x85 || n == 0x2028 || n == 0x2029

/-- The lines of a text. A return and a feed together end one line, and behind the last end of a line
there is a line only if anything stands there. -/
def partedLines : List Char → List (List Char)
  | [] => []
  | '\r' :: '\n' :: rest => [] :: partedLines rest
  | c :: rest =>
    if isLineBreak c then [] :: partedLines rest
    else match partedLines rest with
      | [] => [[c]]
      | line :: others => (c :: line) :: others

/-- The lines of a text. -/
def linesOf (text : String) : List String := (partedLines text.toList).map String.ofList

example : linesOf "a\r\nb\x0bc\u2028\n" = ["a", "b", "c", ""] := by decide

section Parting

variable {c : Char} {line rest : List Char} {s : String} {ls : List String}

theorem isBlank_of_isLineBreak (h : isLineBreak c = true) : Text.isBlank c = true ∧ c ≠ ' ' := by
  simp only [isLineBreak, Bool.or_eq_true, Bool.and_eq_true, decide_eq_true_eq, beq_iff_eq] at h
  refine ⟨?_, ?_⟩
  · simp only [Text.isBlank, Bool.or_eq_true, Bool.and_eq_true, decide_eq_true_eq, beq_iff_eq]
    omega
  · rintro rfl
    revert h
    decide

/-- A text on one line has no ends of lines, its blanks being spaces. -/
theorem not_isLineBreak_of_onLine (h : OnLine s) : ∀ c ∈ s.toList, isLineBreak c = false := by
  refine fun c hc => Bool.eq_false_iff.mpr fun hbreak => ?_
  obtain ⟨hblank, hspace⟩ := isBlank_of_isLineBreak hbreak
  exact hspace (h c hc hblank)

theorem partedLines_cons (h : isLineBreak c = false) : partedLines (c :: rest) =
    match partedLines rest with
    | [] => [[c]]
    | line :: others => (c :: line) :: others := by
  have hreturn : c ≠ '\r' := by
    rintro rfl
    cases h
  rw [partedLines]
  · exact if_neg (Bool.eq_false_iff.mp h)
  · exact fun _ hc _ => hreturn hc

theorem partedLines_append (h : ∀ c ∈ line, isLineBreak c = false) :
    partedLines (line ++ '\n' :: rest) = line :: partedLines rest := by
  induction line with
  | nil => rfl
  | cons c line ih =>
    obtain ⟨hc, hline⟩ := List.forall_mem_cons.mp h
    rw [List.cons_append, partedLines_cons hc, ih hline]

/-- Lines that were written one below the other are read back. -/
theorem linesOf_intercalate (hne : ls ≠ []) (h : ∀ line ∈ ls, OnLine line) :
    linesOf ("\n".intercalate ls ++ "\n") = ls := by
  induction ls with
  | nil => exact absurd rfl hne
  | cons line ls ih =>
    obtain ⟨hline, hls⟩ := List.forall_mem_cons.mp h
    have hbreaks := not_isLineBreak_of_onLine hline
    cases ls with
    | nil =>
      have hparted : partedLines (line.toList ++ ['\n']) = [line.toList] := partedLines_append hbreaks
      simp [linesOf, hparted]
    | cons next ls =>
      have hrest := ih (List.cons_ne_nil _ _) hls
      have htext : ("\n".intercalate (line :: next :: ls) ++ "\n").toList =
          line.toList ++ '\n' :: ("\n".intercalate (next :: ls) ++ "\n").toList := by
        rw [String.intercalate_cons_of_ne_nil (List.cons_ne_nil _ _)]
        simp
      rw [linesOf, htext, partedLines_append hbreaks, List.map_cons, String.ofList_toList]
      exact congrArg (line :: ·) hrest

/-- The lines of the text of a diagram are those that were written. -/
theorem linesOf_render (d : Diagram) : linesOf (render d) = lines d :=
  linesOf_intercalate (by simp [lines]) (onLine_lines d)

end Parting

/-! ## Counting lines -/

/-- How many literals, fields and operations a classifier has. -/
structure MemberCount where
  literals : Nat
  fields : Nat
  operations : Nat
deriving Repr, DecidableEq

/-- What a diagram is apart from its texts: whether it has a name, how many namespaces with a name, how
many members of each sort in each classifier, and how many relationships. -/
structure Shape where
  named : Bool
  namespaces : Nat
  members : List MemberCount
  relationships : Nat
deriving Repr, DecidableEq

def MemberCount.of (c : Classifier) : MemberCount :=
  ⟨c.literals.length, c.fields.length, c.operations.length⟩

def Shape.of (d : Diagram) : Shape where
  named := !d.name.isEmpty
  namespaces := ((d.classifiers.map (·.namespaceName)).toFinset.erase "").card
  members := d.classifiers.map .of
  relationships := d.relationships.length

/-- The lines of a classifier with the empty one behind it: its first and its last one, its members, and
the dividers between groups of them. -/
def MemberCount.lineCount (m : MemberCount) : Nat :=
  3 + m.literals + m.fields + m.operations +
    (m.literals != 0 && (m.fields != 0 || m.operations != 0)).toNat +
    (m.fields != 0 && m.operations != 0).toNat

/-- The lines of a picture: those of its look between the first one and an empty one, its title, the
opening and the closing of each package with the empty line behind it, classifiers and relationships, and
two lines at the end. -/
def Shape.lineCount (s : Shape) : Nat :=
  (look.length + 2) + (if s.named then 2 else 0) + 3 * s.namespaces +
    (s.members.map (·.lineCount)).sum + s.relationships + 2

section Counting

variable {d : Diagram} {c : Classifier} {a : String}

theorem length_divider (before after : Bool) :
    (divider before after).length = (before && after).toNat := by
  cases before <;> cases after <;> rfl

theorem length_classifierLines (c : Classifier) (a : String) :
    (classifierLines c a).length + 1 = (MemberCount.of c).lineCount := by
  have hempty {α : Type} (xs : List α) : (!xs.isEmpty) = (xs.length != 0) := by
    cases xs <;> rfl
  simp only [classifierLines, List.length_append, List.length_cons, List.length_nil, List.length_map,
    length_divider, hempty, MemberCount.lineCount, MemberCount.of]
  omega

theorem length_declarationLines (members : List (Classifier × String)) :
    (declarationLines members).length = (members.map fun p => (MemberCount.of p.1).lineCount).sum := by
  rw [declarationLines, List.length_flatMap]
  refine congrArg List.sum (List.map_congr_left fun p _ => ?_)
  rw [List.length_append]
  exact length_classifierLines p.1 p.2

theorem length_packageLines (d : Diagram) (name : String) : (packageLines d name).length =
    (if name.isEmpty then 0 else 3) + (declarationLines (membersOf d name)).length := by
  rw [packageLines_eq]
  split
  · exact (Nat.zero_add _).symm
  · simp only [List.length_append, List.length_cons, List.length_nil]
    omega

/-- The classifiers of a namespace, whatever their aliases. -/
theorem map_fst_membersOf (d : Diagram) (name : String) :
    (membersOf d name).map (·.1) = d.classifiers.filter (·.namespaceName == name) := by
  rw [membersOf, ← map_fst_aliased d, List.filter_map]
  rfl

theorem length_blocks (d : Diagram) : (blocks d).length = (Shape.of d).namespaces := by
  have hnodup : (blocks d).Nodup := (increasing_blocks d).imp ne_of_lt
  rw [← List.toFinset_card_of_nodup hnodup]
  refine congrArg Finset.card (?_ : _ = (d.classifiers.map (·.namespaceName)).toFinset.erase "")
  ext name
  rw [List.mem_toFinset, mem_blocks, Finset.mem_erase, List.mem_toFinset, List.mem_map]

/-- Grouped by their namespaces, classifiers have as many lines as in diagram order. -/
theorem sum_members (d : Diagram) :
    ((namespaces d).map fun name => (declarationLines (membersOf d name)).length).sum =
      ((Shape.of d).members.map (·.lineCount)).sum := by
  let count (c : Classifier) := (MemberCount.of c).lineCount
  have hnodup : (namespaces d).Nodup := (Java.increasing_sortedDistinct _).imp ne_of_lt
  have hperm := perm_flatMap_filter hnodup fun c hc => mem_namespaces.mpr ⟨c, hc, rfl⟩
  have hgroup (name : String) : (declarationLines (membersOf d name)).length =
      ((d.classifiers.filter (·.namespaceName == name)).map count).sum := by
    rw [length_declarationLines, ← map_fst_membersOf, List.map_map]
    rfl
  calc ((namespaces d).map fun name => (declarationLines (membersOf d name)).length).sum
    _ = (((namespaces d).flatMap fun name => d.classifiers.filter (·.namespaceName == name)).map count).sum := by
      rw [List.map_flatMap, List.flatMap_def, List.sum_flatten, List.map_map]
      exact congrArg List.sum (List.map_congr_left fun name _ => hgroup name)
    _ = (d.classifiers.map count).sum := (hperm.map count).sum_eq
    _ = ((Shape.of d).members.map (·.lineCount)).sum := by
      rw [Shape.of, List.map_map]
      rfl

theorem sum_openings (names : List String) :
    (names.map fun name => if name.isEmpty then 0 else 3).sum =
      3 * (names.filter fun name => !name.isEmpty).length := by
  induction names with
  | nil => rfl
  | cons name names ih =>
    rw [List.map_cons, List.sum_cons, ih, List.filter_cons]
    cases name.isEmpty
    · simp only [Bool.not_false, if_true, List.length_cons]
      simp only [Bool.false_eq_true, if_false]
      omega
    · simp

theorem length_lines (d : Diagram) : (lines d).length = (Shape.of d).lineCount := by
  have hpackages : ((namespaces d).flatMap (packageLines d)).length =
      3 * (Shape.of d).namespaces + ((Shape.of d).members.map (·.lineCount)).sum := by
    rw [List.length_flatMap, ← sum_members, ← length_blocks, blocks, ← sum_openings, ← List.sum_map_add]
    exact congrArg List.sum (List.map_congr_left fun name _ => length_packageLines d name)
  have htitle : (if d.name.isEmpty then [] else ["title " ++ oneLine d.name, ""]).length =
      if (Shape.of d).named then 2 else 0 := by
    rw [Shape.of]
    cases d.name.isEmpty <;> rfl
  have hlinks : (d.relationships.map (relationshipLine (aliasOf d))).length =
      (Shape.of d).relationships := List.length_map _
  rw [lines]
  simp only [List.length_append, hpackages, htitle, hlinks, List.length_cons, List.length_nil,
    Shape.lineCount]
  omega

end Counting

/-! ## Counting quotes -/

/-- How many quotes a text has. -/
def quotes (s : String) : Nat := s.toList.count '"'

/-- Whether there is a multiplicity that says anything. -/
def isStated (text? : Option String) : Bool := text?.any (!·.isEmpty)

section Quotes

variable {s t a line : String} {d : Diagram} {c : Classifier}

@[simp] theorem quotes_append : quotes (s ++ t) = quotes s + quotes t := by
  simp [quotes, List.count_append]

theorem quotes_eq_zero_iff : quotes s = 0 ↔ '"' ∉ s.toList := List.count_eq_zero

theorem IsPlain.quotes_eq (h : IsPlain s) : quotes s = 0 := quotes_eq_zero_iff.mpr h.quote_notMem

theorem quotes_headerLine (c : Classifier) (ha : IsAlias a) : quotes (headerLine c a) = 2 := by
  simp only [headerLine, quotes_append, (isPlain_oneLine _).quotes_eq, (isPlain_keyword c).quotes_eq,
    (isPlain_of_isAlias ha).quotes_eq]
  rfl

theorem quotes_multiplicity {before after : String} (hbefore : quotes before = 0) (hafter : quotes after = 0)
    (text? : Option String) :
    quotes (multiplicity before after text?) = if isStated text? then 2 else 0 := by
  cases text? with
  | none => rfl
  | some text =>
    have hstated : isStated (some text) = !text.isEmpty := rfl
    rw [multiplicity, hstated]
    cases text.isEmpty with
    | true => rfl
    | false =>
      simp only [Bool.false_eq_true, if_false, quotes_append, (isPlain_oneLine _).quotes_eq, hbefore, hafter]
      rfl

theorem quotes_relationshipLine (d : Diagram) (r : Relationship) :
    quotes (relationshipLine (aliasOf d) r) =
      2 * [r.sourceMultiplicity, r.targetMultiplicity].countP isStated := by
  have hspace : quotes " " = 0 := rfl
  have hempty : quotes "" = 0 := rfl
  simp only [relationshipLine_eq, quotes_append, (isPlain_aliasOf d _).quotes_eq, (isPlain_arrow _).quotes_eq,
    (isPlain_labelText _).quotes_eq, hspace, quotes_multiplicity hspace hempty,
    quotes_multiplicity hempty hspace, List.countP_cons, List.countP_nil]
  cases isStated r.sourceMultiplicity <;> cases isStated r.targetMultiplicity <;> rfl

end Quotes

section Lines

variable {d : Diagram} {p : Classifier × String} {r : Relationship}

theorem headerLine_mem (hp : p ∈ aliased d) : headerLine p.1 p.2 ∈ lines d := by
  have hname : p.1.namespaceName ∈ namespaces d :=
    mem_namespaces.mpr ⟨p.1, map_fst_aliased d ▸ List.mem_map_of_mem hp, rfl⟩
  have hmember : p ∈ membersOf d p.1.namespaceName := List.mem_filter.mpr ⟨hp, beq_self_eq_true _⟩
  have hdeclared : headerLine p.1 p.2 ∈ declarationLines (membersOf d p.1.namespaceName) :=
    List.mem_flatMap.mpr ⟨p, hmember, by simp [classifierLines_eq]⟩
  have hpackage : headerLine p.1 p.2 ∈ packageLines d p.1.namespaceName := by
    rw [packageLines_eq]
    split
    · exact hdeclared
    · simp [hdeclared]
  have hall := List.mem_flatMap.mpr ⟨_, hname, hpackage⟩
  simp [lines, hall]

theorem relationshipLine_mem (hr : r ∈ d.relationships) : relationshipLine (aliasOf d) r ∈ lines d := by
  have hmem := List.mem_map_of_mem (f := relationshipLine (aliasOf d)) hr
  simp [lines, hmem]

/-- Whatever texts a diagram has, the number of lines of its picture follows from its shape. The header of
each classifier is one of them and has two quotes; the line of each relationship is one of them and has two
for each multiplicity that says anything; and no other line has any. -/
theorem render_unbroken (d : Diagram) :
    (linesOf (render d)).length = (Shape.of d).lineCount ∧
    (∀ p ∈ aliased d, headerLine p.1 p.2 ∈ linesOf (render d) ∧ quotes (headerLine p.1 p.2) = 2) ∧
    (∀ r ∈ d.relationships, relationshipLine (aliasOf d) r ∈ linesOf (render d) ∧
      quotes (relationshipLine (aliasOf d) r) =
        2 * [r.sourceMultiplicity, r.targetMultiplicity].countP isStated) ∧
    ∀ line ∈ linesOf (render d), quotes line ≠ 0 →
      (∃ p ∈ aliased d, line = headerLine p.1 p.2) ∨
        ∃ r ∈ d.relationships, line = relationshipLine (aliasOf d) r := by
  rw [linesOf_render]
  refine ⟨length_lines d, fun p hp => ⟨headerLine_mem hp, ?_⟩, fun r hr => ⟨relationshipLine_mem hr, ?_⟩,
    fun line hline hquotes => ?_⟩
  · exact quotes_headerLine p.1 (isAlias_of_mem_aliased hp)
  · exact quotes_relationshipLine d r
  · obtain hheader | hlink | hplain := lines_cases hline
    · exact .inl hheader
    · exact .inr hlink
    · exact absurd hplain.quotes_eq hquotes

end Lines

/-- A name with quotes and the end of a paragraph in a namespace of two lines, and a multiplicity that is
quoted itself and ends its line. -/
theorem render_unbroken_quoted :
    let door := { bareClass 0 "a" with
      name := "the \"Door\"\u2029", namespaceName := "house\r\nentry", literals := ["open\n", "\"shut"] }
    let edge := { bareEdge 0 door door .association with sourceMultiplicity := some "\"1\"\x0b" }
    let d : Diagram := { (DiagramOf.empty "plan\n" "" none none none {}).1 with
      elements := [.classifier door, .relationship edge], index := [("a", 0)] }
    (linesOf (render d)).length = 36 ∧
      (door, "the__Door___0") ∈ aliased d ∧ quotes (headerLine door "the__Door___0") = 2 ∧
      edge ∈ d.relationships ∧ quotes (relationshipLine (aliasOf d) edge) = 2 := by
  intro door edge d
  obtain ⟨hcount, hheaders, hlinks, -⟩ := render_unbroken d
  have hdoor : (door, "the__Door___0") ∈ aliased d := List.mem_singleton.mpr (Prod.ext rfl (by decide))
  have hedge : edge ∈ d.relationships := List.mem_singleton.mpr rfl
  exact ⟨hcount.trans (by decide), hdoor, (hheaders _ hdoor).2, hedge, (hlinks _ hedge).2⟩

end ClassAtlas.PlantUml
