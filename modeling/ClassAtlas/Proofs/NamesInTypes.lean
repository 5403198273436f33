import ClassAtlas.Java.TypeNames
import ClassAtlas.Inference.Resolution
import ClassAtlas.Proofs.WrittenTokens
import Mathlib.Data.List.TakeWhile

/-! # Names in types, and how they are looked up

A name found in a type consists of word characters, dollar signs and single points. None of these is
taken off before a lookup, so such a name is looked up as it stands, and without a point it is looked up
as a simple name. Where no search order is given, a simple name means the first classifier of that name
in the namespace of whoever asks, or else the first of that name anywhere. -/

namespace ClassAtlas.Java.TypeNames

open Lexer (toNat_of_isAlpha toNat_of_isDigit)

variable {cs : List Char} {c : Char}

/-! ## The characters of a name -/

/-- The blanks beyond the ASCII range. -/
def wideBlanks : List Nat :=
  [0x85, 0xA0, 0x1680, 0x2028, 0x2029, 0x202F, 0x205F, 0x3000] ++ (List.range 11).map (0x2000 + ·)

theorem mem_wideBlanks (h : Text.isBlank c = true) (hwide : ¬ c.toNat < 128) :
    c.toNat ∈ wideBlanks := by
  simp only [Text.isBlank, Bool.or_eq_true, Bool.and_eq_true, decide_eq_true_eq, beq_iff_eq] at h
  simp only [wideBlanks, List.mem_append, List.mem_cons, List.mem_map, List.mem_range,
    List.not_mem_nil, or_false]
  by_cases hspace : 0x2000 ≤ c.toNat ∧ c.toNat ≤ 0x200A
  · exact .inr ⟨c.toNat - 0x2000, by omega, by omega⟩
  · exact .inl (by omega)

theorem wideBlanks_are_no_letters : ∀ n ∈ wideBlanks,
    Text.lettersAndNumbers.any (fun range => range.1 ≤ n && n ≤ range.2) = false := by
  decide +kernel

theorem toNat_of_isAlphanum (h : c.isAlphanum = true) : 48 ≤ c.toNat ∧ c.toNat < 128 := by
  have hcases : c.isAlpha = true ∨ c.isDigit = true := Bool.or_eq_true_iff.mp h
  rcases hcases with h | h
  · have hletter := toNat_of_isAlpha h
    omega
  · have hdigit := toNat_of_isDigit h
    omega

theorem isBlank_of_isWordChar (h : Text.isWordChar c = true) : Text.isBlank c = false := by
  refine Bool.eq_false_iff.mpr fun hblank => ?_
  rw [Text.isWordChar] at h
  split at h
  · rcases Bool.or_eq_true_iff.mp h with halnum | hline
    · have hcode := toNat_of_isAlphanum halnum
      simp only [Text.isBlank, Bool.or_eq_true, Bool.and_eq_true, decide_eq_true_eq,
        beq_iff_eq] at hblank
      omega
    · cases beq_iff_eq.mp hline
      exact absurd hblank (by decide)
  · rename_i hwide
    rw [Text.CharTable.has, wideBlanks_are_no_letters _ (mem_wideBlanks hblank hwide)] at h
    cases h

theorem isPart_of_isNamePart (h : Lexer.isNamePart c = true) : isPart c = true := by
  simp only [Lexer.isNamePart, Bool.or_eq_true] at h
  rw [isPart, Text.isWordChar, Bool.or_eq_true]
  rcases h with (halnum | hline) | hdollar
  · exact .inl (by simp [toNat_of_isAlphanum halnum, halnum])
  · cases beq_iff_eq.mp hline
    exact .inl (by decide)
  · exact .inr hdollar

theorem isPart_of_isStart (h : isStart c = true) : isPart c = true :=
  isPart_of_isNamePart (Lexer.isNamePart_of_start h)

/-- A character that a lookup leaves in its place wherever it stands. -/
structure Plain (c : Char) : Prop where
  blank : Text.isBlank c = false
  angle : c ≠ '<'
  bracket : c ≠ '['

theorem plain_of_isPart (h : isPart c = true) : Plain c := by
  have hne : ∀ other, isPart other = false → c ≠ other := by
    rintro other hother rfl
    rw [h] at hother
    cases hother
  refine ⟨?_, hne '<' (by decide), hne '[' (by decide)⟩
  rcases Bool.or_eq_true_iff.mp h with hword | hdollar
  · exact isBlank_of_isWordChar hword
  · rw [beq_iff_eq.mp hdollar]
    decide

/-- Text that a lookup leaves as it is. -/
structure Bare (cs : List Char) : Prop where
  plain : ∀ c ∈ cs, Plain c
  points : Inference.dropPoints cs = cs

theorem dropPoints_cons (h : c = '.' → cs.head? ≠ some '.') :
    Inference.dropPoints (c :: cs) = c :: Inference.dropPoints cs := by
  rw [Inference.dropPoints]
  rintro rest hpoint rfl
  exact h hpoint rfl

theorem Bare.cons (h : Bare cs) (hc : Plain c) (hpoint : c = '.' → cs.head? ≠ some '.') :
    Bare (c :: cs) where
  plain := List.forall_mem_cons.mpr ⟨hc, h.plain⟩
  points := by rw [dropPoints_cons hpoint, h.points]

/-- A word is looked up as it is. -/
theorem bare_of_isWord {name : String} (h : Lexer.IsWord name) : Bare name.toList := by
  have hparts := Lexer.isNamePart_of_mem h
  generalize name.toList = cs at hparts
  induction cs with
  | nil => exact ⟨List.forall_mem_nil _, rfl⟩
  | cons c cs ih =>
    obtain ⟨hc, hcs⟩ := List.forall_mem_cons.mp hparts
    exact (ih hcs).cons (plain_of_isPart (isPart_of_isNamePart hc)) fun hpoint =>
      absurd hpoint (Lexer.ne_of_isNamePart hc (by decide))

theorem point_isPart : isPart '.' = false := by decide

theorem head?_restOfName (h : continues cs = true) : (restOfName cs).1.head? ≠ some '.' := by
  cases cs with
  | nil => cases h
  | cons c cs =>
    have hpart := isPart_of_isStart (c := c) h
    rw [restOfName, hpart, Bool.true_or, if_pos rfl]
    rintro ⟨⟩
    rw [point_isPart] at hpart
    cases hpart

theorem bare_restOfName (cs : List Char) : Bare (restOfName cs).1 := by
  induction cs with
  | nil => exact ⟨List.forall_mem_nil _, rfl⟩
  | cons c cs ih =>
    rw [restOfName]
    split
    · rename_i hname
      rcases Bool.or_eq_true_iff.mp hname with hpart | hpoint
      · refine ih.cons (plain_of_isPart hpart) ?_
        rintro rfl
        rw [point_isPart] at hpart
        cases hpart
      · obtain ⟨hpoint, hnext⟩ := Bool.and_eq_true_iff.mp hpoint
        cases beq_iff_eq.mp hpoint
        exact ih.cons ⟨by decide, by decide, by decide⟩ fun _ => head?_restOfName hnext
    · exact ⟨List.forall_mem_nil _, rfl⟩

theorem bare_of_mem_scan {name : List Char} (h : name ∈ scan cs) : Bare name ∧ name ≠ [] := by
  fun_induction scan cs with
  | case1 => cases h
  | case2 c rest hstart ih =>
    rcases List.mem_cons.mp h with rfl | h
    · have hpart := isPart_of_isStart hstart
      refine ⟨(bare_restOfName rest).cons (plain_of_isPart hpart) ?_, List.cons_ne_nil _ _⟩
      rintro rfl
      rw [point_isPart] at hpart
      cases hpart
    · exact ih h
  | case3 c rest hstart ih => exact ih h

theorem mem_foldl_distinct {α : Type} [BEq α] [LawfulBEq α] {xs seen : List α} {x : α} :
    x ∈ xs.foldl (fun seen x => if seen.contains x then seen else x :: seen) seen ↔
      x ∈ seen ∨ x ∈ xs := by
  induction xs generalizing seen with
  | nil => simp
  | cons y ys ih =>
    rw [List.foldl_cons, ih, List.mem_cons]
    split
    · rename_i hy
      constructor
      · exact fun h => h.imp_right .inr
      · rintro (h | rfl | h)
        · exact .inl h
        · exact .inl (List.contains_iff_mem.mp hy)
        · exact .inr h
    · rw [List.mem_cons]
      tauto

theorem mem_distinct {α : Type} [BEq α] [LawfulBEq α] {xs : List α} {x : α} :
    x ∈ distinct xs ↔ x ∈ xs := by
  rw [distinct, List.mem_reverse, mem_foldl_distinct]
  simp

theorem bare_of_mem_ofText {text name : String} (h : name ∈ ofText text) :
    Bare name.toList ∧ name ≠ "" := by
  obtain ⟨hname, -⟩ := List.mem_filter.mp (mem_distinct.mp h)
  obtain ⟨cs, hcs, rfl⟩ := List.mem_map.mp hname
  obtain ⟨hbare, hne⟩ := bare_of_mem_scan hcs
  rw [String.toList_ofList]
  exact ⟨hbare, by simpa using hne⟩

end ClassAtlas.Java.TypeNames

namespace ClassAtlas.Inference

open Java.TypeNames (Bare Plain)

variable {cs : List Char}

/-! ## Looking a name up -/

theorem dropPairs_eq (h : ∀ c ∈ cs, c ≠ '[') : dropPairs cs = cs := by
  induction cs with
  | nil => rfl
  | cons c cs ih =>
    obtain ⟨hc, hcs⟩ := List.forall_mem_cons.mp h
    rw [dropPairs, ih hcs]
    rintro rest rfl
    exact absurd rfl hc

theorem dropWhile_isBlank (h : ∀ c ∈ cs, Text.isBlank c = false) : cs.dropWhile Text.isBlank = cs := by
  cases cs with
  | nil => rfl
  | cons c cs => simp [List.forall_mem_cons.mp h]

theorem stripChars_eq (h : ∀ c ∈ cs, Text.isBlank c = false) : Text.stripChars cs = cs := by
  rw [Text.stripChars, dropWhile_isBlank h, dropWhile_isBlank (by simpa using h), List.reverse_reverse]

/-- Such text is looked up as it stands. -/
theorem bareName_eq {name : String} (h : Bare name.toList) : bareName name = name.toList := by
  have hangle : name.toList.takeWhile (· != '<') = name.toList :=
    List.takeWhile_eq_self_iff.mpr fun c hc => by simpa using (h.plain c hc).angle
  rw [bareName, hangle, dropPairs_eq fun c hc => (h.plain c hc).bracket, h.points,
    stripChars_eq fun c hc => (h.plain c hc).blank]

theorem lastSegment_eq (h : '.' ∉ cs) : lastSegment cs = cs := by
  have hall : cs.reverse.takeWhile (· != '.') = cs.reverse :=
    List.takeWhile_eq_self_iff.mpr fun c hc => by
      simpa using ne_of_mem_of_not_mem (List.mem_reverse.mp hc) h
  rw [lastSegment, hall, List.reverse_reverse]

theorem takeWhile_append_stop {α : Type} {p : α → Bool} {x : α} (xs ys : List α) (h : p x = false) :
    (xs ++ x :: ys).takeWhile p = xs.takeWhile p := by
  induction xs with
  | nil => rw [List.nil_append, List.takeWhile_cons, h, List.takeWhile_nil, if_neg Bool.false_ne_true]
  | cons y xs ih => rw [List.cons_append, List.takeWhile_cons, List.takeWhile_cons, ih]

/-- What stands before a point does not count. -/
theorem lastSegment_behind (before cs : List Char) : lastSegment (before ++ '.' :: cs) = lastSegment cs := by
  have hsplit : (before ++ '.' :: cs).reverse = cs.reverse ++ '.' :: before.reverse := by simp
  rw [lastSegment, hsplit, takeWhile_append_stop _ _ (by decide), lastSegment]

theorem lastSegment_append {before : List Char} (h : '.' ∉ cs) :
    lastSegment (before ++ '.' :: cs) = cs := by
  rw [lastSegment_behind, lastSegment_eq h]

theorem point_notMem_lastSegment (cs : List Char) : '.' ∉ lastSegment cs := by
  intro hmem
  rw [lastSegment, List.mem_reverse] at hmem
  simpa using List.mem_takeWhile_imp hmem

/-- A qualified name ends in the simple name. -/
theorem lastSegment_qualify {namespaceName name : String} (h : '.' ∉ name.toList) :
    lastSegment (qualify namespaceName name).toList = name.toList := by
  rw [qualify]
  split
  · exact lastSegment_eq h
  · have htext : (Label.shown namespaceName ++ "." ++ Label.shown name).toList =
        namespaceName.toList ++ '.' :: name.toList := by simp
    rw [htext, lastSegment_append h]

namespace Scope

/-- Of the classifiers of a name, the first in the owner's namespace is meant, or else the first. -/
theorem lookUp_target (classifiers : List Classifier) (owner : Classifier) (name : String) :
    ((⟨classifiers, []⟩ : Scope).lookUp owner name).target? =
      ((classifiers.find? fun k => k.name == name && k.namespaceName == owner.namespaceName).or
        (classifiers.find? (·.name == name))) := by
  have hown : (classifiers.find? fun k => k.name == name && k.namespaceName == owner.namespaceName) =
      (classifiers.filter (·.name == name)).find? (·.namespaceName == owner.namespaceName) := by
    rw [List.find?_filter]
    simp only [Bool.decide_eq_true, Bool.decide_and]
  have hfirst : classifiers.find? (·.name == name) = (classifiers.filter (·.name == name)).head? :=
    List.head?_filter.symm
  rw [hown, hfirst]
  unfold lookUp named
  cases classifiers.filter (·.name == name) with
  | nil => rfl
  | cons first others =>
    cases others with
    | nil =>
      by_cases hown : first.namespaceName = owner.namespaceName <;> simp [Finding.target?, hown]
    | cons second others =>
      simp only [Finding.target?, prefer, List.findSome?_nil, Option.or_none]
      cases (first :: second :: others).find? (·.namespaceName == owner.namespaceName) <;> rfl

/-- A text means the classifier of that qualified name, or one whose simple name the text ends in. -/
theorem resolve_cases {s : Scope} {owner c : Classifier} {text : String}
    (h : s.resolve owner text = some c) :
    ('.' ∈ bareName text ∧ c.qualifiedName.toList = bareName text) ∨
      (s.lookUp owner (String.ofList (lastSegment (bareName text)))).target? = some c := by
  rw [resolve, find] at h
  split at h
  · cases h
  · split at h
    · rename_i hdotted
      split at h
      · rename_i found hqualified
        obtain rfl : found = c := Option.some.inj h
        have heq : found.qualifiedName = String.ofList (bareName text) := by
          simpa using List.find?_some hqualified
        exact .inl ⟨by simpa using hdotted, by rw [heq, String.toList_ofList]⟩
      · split at h
        · exact .inr h
        · cases h
    · rename_i hsimple
      rw [lastSegment_eq (by simpa using hsimple)]
      exact .inr h

/-- A name without points is looked up as a simple name. -/
theorem resolve_simple {s : Scope} {owner : Classifier} {name : String} (hbare : Bare name.toList)
    (hname : name ≠ "") (hpoint : '.' ∉ name.toList) :
    s.resolve owner name = (s.lookUp owner name).target? := by
  have hempty : name.toList.isEmpty = false := by simpa using hname
  have hcontains : name.toList.contains '.' = false := by simpa using hpoint
  simp only [resolve, find, bareName_eq hbare, hempty, hcontains, Bool.false_eq_true, if_false,
    String.ofList_toList]

end Scope

end ClassAtlas.Inference
