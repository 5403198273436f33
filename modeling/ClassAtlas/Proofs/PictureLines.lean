import ClassAtlas.PlantUml
import ClassAtlas.Proofs.NamesInTypes
import ClassAtlas.Proofs.PathNames

/-! # The lines of a picture

Every text that a diagram holds is put on one line before it is written, where it has no blanks but
spaces and no quotes, and aliases have neither. So each line of a picture is one line of its text, whatever
texts the diagram holds, and only headers of classifiers and lines of relationships have quotes. -/

namespace ClassAtlas.PlantUml

/-! ## Texts on one line -/

/-- The only blanks of a text are spaces. -/
def OnLine (s : String) : Prop := ∀ c ∈ s.toList, Text.isBlank c = true → c = ' '

-- Goes along the text, as the statement does not say: there are finitely many characters as well, and
-- to go through all of them would take too long.
instance : DecidablePred OnLine := fun s =>
  decidable_of_iff (s.toList.all fun c => !Text.isBlank c || c == ' ') <| by
    simp [OnLine, imp_iff_not_or]

/-- A text is on one line, and has no quotes. -/
def IsPlain (s : String) : Prop := ∀ c ∈ s.toList, c = ' ' ∨ (Text.isBlank c = false ∧ c ≠ '"')

instance : DecidablePred IsPlain := fun s =>
  decidable_of_iff (s.toList.all fun c => c == ' ' || (!Text.isBlank c && c != '"')) <| by
    simp [IsPlain]

section OneLine

variable {s t : String} {c : Char} {cs : List Char}

@[simp] theorem onLine_append : OnLine (s ++ t) ↔ OnLine s ∧ OnLine t := by
  simp [OnLine, or_imp, forall_and]

@[simp] theorem isPlain_append : IsPlain (s ++ t) ↔ IsPlain s ∧ IsPlain t := by
  simp [IsPlain, or_imp, forall_and]

theorem IsPlain.onLine (h : IsPlain s) : OnLine s := fun c hc hblank =>
  (h c hc).resolve_right fun hother => by simp [hother.1] at hblank

theorem IsPlain.quote_notMem (h : IsPlain s) : '"' ∉ s.toList := fun hmem =>
  (h _ hmem).elim (by decide) fun hother => hother.2 rfl

theorem newline_notMem_of_onLine (h : OnLine s) : '\n' ∉ s.toList := fun hmem =>
  absurd (h _ hmem (by decide)) (by decide)

theorem mem_intercalate_space {words : List (List Char)} (h : c ∈ [' '].intercalate words) :
    c = ' ' ∨ c ∈ words.flatten := by
  induction words with
  | nil => cases h
  | cons word words ih =>
    cases words with
    | nil => simp_all
    | cons next words =>
      rw [List.intercalate_cons_cons, List.mem_append, List.mem_append, List.mem_singleton] at h
      rw [List.flatten_cons, List.mem_append]
      rcases h with (h | h) | h
      · exact .inr (.inl h)
      · exact .inl h
      · exact (ih h).imp_right .inr

/-- Of a text on one line, every character is a space or is neither blank nor a quote. -/
@[simp] theorem isPlain_oneLine (s : String) : IsPlain (oneLine s) := by
  intro c h
  rw [oneLine, String.toList_ofList, Text.joinedWords] at h
  refine (mem_intercalate_space h).imp_right fun hword => ?_
  rw [Text.flatten_wordsOf, List.mem_filter] at hword
  obtain ⟨hmem, hblank⟩ := hword
  obtain ⟨old, -, rfl⟩ := List.mem_map.mp hmem
  refine ⟨by simpa using hblank, ?_⟩
  split
  · decide
  · rename_i hquote
    simpa using hquote

@[simp] theorem onLine_oneLine (s : String) : OnLine (oneLine s) := (isPlain_oneLine s).onLine

theorem quote_notMem_oneLine (s : String) : '"' ∉ (oneLine s).toList := (isPlain_oneLine s).quote_notMem

theorem isPlain_intercalate {sep : String} {texts : List String} (hsep : IsPlain sep)
    (h : ∀ t ∈ texts, IsPlain t) : IsPlain (sep.intercalate texts) := by
  induction texts with
  | nil => simp [IsPlain]
  | cons text texts ih =>
    obtain ⟨htext, htexts⟩ := List.forall_mem_cons.mp h
    by_cases hnil : texts = []
    · simpa [hnil] using htext
    · rw [String.intercalate_cons_of_ne_nil hnil]
      simp [htext, hsep, ih htexts]

end OneLine

/-! ## Aliases -/

def isAliasChar (c : Char) : Bool := c.isAlphanum || c == '_'

/-- An alias as lines have it: without spaces, and with an underscore. -/
structure IsAlias (a : String) : Prop where
  chars : ∀ c ∈ a.toList, isAliasChar c = true
  underscore : '_' ∈ a.toList

section Aliases

variable {name : String} {place : Nat}

theorem digits_shortName (place : Nat) : ∀ c ∈ (toString place).toList, c.isDigit = true := by
  intro c hc
  rw [Nat.toString_eq_ofList_toDigits, String.toList_ofList] at hc
  exact Nat.isDigit_of_mem_toDigits (by omega) (by omega) hc

theorem toList_shortName (name : String) (place : Nat) : (shortName name place).toList =
    (name.toList.map fun c => if c.isAlphanum then c else '_').take 30 ++
      '_' :: (toString place).toList := by
  simp [shortName]

theorem isAliasChar_shortName : ∀ c ∈ (shortName name place).toList, isAliasChar c = true := by
  intro c hc
  rw [toList_shortName, List.mem_append, List.mem_cons] at hc
  rcases hc with hname | rfl | hdigit
  · obtain ⟨old, -, rfl⟩ := List.mem_map.mp (List.mem_of_mem_take hname)
    split
    · simp [isAliasChar, *]
    · rfl
  · rfl
  · simp [isAliasChar, Char.isAlphanum, digits_shortName place c hdigit]

theorem underscore_mem_shortName : '_' ∈ (shortName name place).toList := by
  simp [toList_shortName]

/-- The place can be read off an alias: no digit is an underscore. -/
theorem shortName_injective {name' : String} {place' : Nat}
    (h : shortName name place = shortName name' place') : place = place' := by
  have htail : ∀ name place, (shortName name place).toList.reverse.takeWhile (· != '_') =
      (toString place).toList.reverse := by
    intro name place
    rw [toList_shortName, List.reverse_append, List.reverse_cons, List.append_assoc,
      List.singleton_append, List.takeWhile_append_of_pos, List.takeWhile_cons_of_neg (by decide),
      List.append_nil]
    intro c hc
    have hdigit := digits_shortName place c (List.mem_reverse.mp hc)
    rw [bne_iff_ne]
    rintro rfl
    cases hdigit
  have hdigits : toString place = toString place' := by
    rw [← String.toList_inj, ← List.reverse_inj, ← htail name, ← htail name', h]
  simpa [Nat.toString_eq_ofList_toDigits] using congrArg (Nat.ofDigitChars 10 ·.toList 0) hdigits

theorem isAlias_shortName (name : String) (place : Nat) : IsAlias (shortName name place) :=
  ⟨isAliasChar_shortName, underscore_mem_shortName⟩

theorem isBlank_of_isAliasChar {c : Char} (h : isAliasChar c = true) : Text.isBlank c = false := by
  refine Bool.eq_false_iff.mpr fun hblank => ?_
  rw [isAliasChar, Bool.or_eq_true, beq_iff_eq] at h
  rcases h with halnum | rfl
  · have hcode := Java.TypeNames.toNat_of_isAlphanum halnum
    simp only [Text.isBlank, Bool.or_eq_true, Bool.and_eq_true, decide_eq_true_eq, beq_iff_eq] at hblank
    omega
  · cases hblank

theorem isPlain_of_isAlias {a : String} (h : IsAlias a) : IsPlain a := by
  refine fun c hc => .inr ⟨isBlank_of_isAliasChar (h.chars c hc), ?_⟩
  rintro rfl
  exact absurd (h.chars _ hc) (by decide)

theorem mem_aliased {d : Diagram} {p : Classifier × String} :
    p ∈ aliased d ↔ ∃ place : Nat, d.classifiers[place]? = some p.1 ∧ p.2 = shortName p.1.name place := by
  simp only [aliased, List.mem_map, Prod.exists, List.mem_zipIdx_iff_getElem?]
  constructor
  · rintro ⟨c, place, hplace, rfl⟩
    exact ⟨place, hplace, rfl⟩
  · rintro ⟨place, hplace, hshort⟩
    exact ⟨p.1, place, hplace, Prod.ext rfl hshort.symm⟩

theorem isAlias_of_mem_aliased {d : Diagram} {p : Classifier × String} (h : p ∈ aliased d) :
    IsAlias p.2 := by
  obtain ⟨place, -, hshort⟩ := mem_aliased.mp h
  exact hshort ▸ isAlias_shortName _ _

end Aliases

/-! ## The lines of a classifier -/

section Lines

variable {d : Diagram} {c : Classifier} {line a : String}

/-- The first line of a classifier. -/
def headerLine (c : Classifier) (aliasName : String) : String :=
  keyword c ++ " \"" ++ oneLine c.name ++ "\" as " ++ aliasName ++ " \x7b"

/-- The lines between the first and the last one of a classifier. -/
def memberLines (c : Classifier) : List String :=
  c.literals.map (fun literal => "  " ++ oneLine literal) ++
    divider (!c.literals.isEmpty) (!c.fields.isEmpty || !c.operations.isEmpty) ++
    c.fields.map fieldLine ++
    divider (!c.fields.isEmpty) (!c.operations.isEmpty) ++
    c.operations.map operationLine

theorem classifierLines_eq (c : Classifier) (a : String) :
    classifierLines c a = [headerLine c a] ++ memberLines c ++ ["\x7d"] := by
  simp only [classifierLines, headerLine, memberLines, List.append_assoc]

theorem isPlain_sign (v : Visibility) : IsPlain v.sign := by
  cases v <;> decide

theorem isPlain_keyword (c : Classifier) : IsPlain (keyword c) := by
  unfold keyword
  cases c.kind <;> cases c.isAbstract <;> decide

theorem onLine_headerLine (c : Classifier) (ha : IsAlias a) : OnLine (headerLine c a) := by
  simp only [headerLine, onLine_append, onLine_oneLine, (isPlain_keyword c).onLine,
    (isPlain_of_isAlias ha).onLine, and_true, true_and]
  decide

theorem isPlain_fieldLine (f : Field) : IsPlain (fieldLine f) := by
  have hstatic : IsPlain (if f.isStatic then "\x7bstatic\x7d " else "") := by
    split <;> decide
  simp only [fieldLine, isPlain_append, isPlain_oneLine, isPlain_sign, hstatic, and_true]
  decide

theorem isPlain_operationLine (op : Operation) : IsPlain (operationLine op) := by
  have hmodifier : IsPlain (if op.isAbstract then "\x7babstract\x7d " else
      if op.isStatic then "\x7bstatic\x7d " else "") := by
    split
    · decide
    · split <;> decide
  have hparameters : IsPlain (", ".intercalate (op.parameters.map parameterText)) := by
    refine isPlain_intercalate (by decide) (List.forall_mem_map.mpr fun p _ => ?_)
    simp only [parameterText, isPlain_append, isPlain_oneLine, and_true, true_and]
    decide
  have hresult : ∀ t : String, IsPlain (if t.isEmpty then "" else " : " ++ oneLine t) := by
    intro t
    split
    · decide
    · exact isPlain_append.mpr ⟨by decide, isPlain_oneLine t⟩
  simp only [operationLine, isPlain_append, isPlain_oneLine, isPlain_sign, hmodifier, hparameters, and_true]
  refine ⟨by decide, ?_⟩
  split
  · exact hresult _
  · decide

theorem eq_of_mem_divider {before after : Bool} (h : line ∈ divider before after) : line = "  --" := by
  rw [divider] at h
  split at h
  · exact List.mem_singleton.mp h
  · cases h

/-- What stands between the first and the last line of a classifier is indented, on one line, and without
quotes. -/
theorem memberLine_indented (h : line ∈ memberLines c) : IsPlain line ∧ ∃ s, line = "  " ++ s := by
  have hdivider : ∀ before after, line ∈ divider before after → IsPlain line ∧ ∃ s, line = "  " ++ s :=
    fun _ _ hmem => eq_of_mem_divider hmem ▸ ⟨by decide, "--", rfl⟩
  simp only [memberLines, List.mem_append, List.mem_map] at h
  rcases h with (((⟨literal, -, rfl⟩ | h) | ⟨f, -, rfl⟩) | h) | ⟨op, -, rfl⟩
  · exact ⟨isPlain_append.mpr ⟨by decide, isPlain_oneLine literal⟩, _, rfl⟩
  · exact hdivider _ _ h
  · exact ⟨isPlain_fieldLine f, _, by rw [fieldLine]; simp only [String.append_assoc]; rfl⟩
  · exact hdivider _ _ h
  · exact ⟨isPlain_operationLine op, _, by rw [operationLine]; simp only [String.append_assoc]; rfl⟩

theorem mem_classifierLines (h : line ∈ classifierLines c a) : line = headerLine c a ∨ IsPlain line := by
  rw [classifierLines_eq, List.mem_append, List.mem_append, List.mem_singleton, List.mem_singleton] at h
  rcases h with (rfl | hmember) | rfl
  · exact .inl rfl
  · exact .inr (memberLine_indented hmember).1
  · exact .inr (by decide)

/-! ## The lines of relationships -/

theorem aliasOf_def (d : Diagram) (id : String) : aliasOf d id =
    (((aliased d).find? fun p => p.1.id == id).map (·.2)).getD "" := rfl

theorem isPlain_aliasOf (d : Diagram) (id : String) : IsPlain (aliasOf d id) := by
  rw [aliasOf_def]
  cases hfound : (aliased d).find? fun p => p.1.id == id with
  | none => decide
  | some p => exact isPlain_of_isAlias (isAlias_of_mem_aliased (List.mem_of_find?_eq_some hfound))

theorem onLine_multiplicity {before after : String} (hbefore : OnLine before) (hafter : OnLine after)
    (text? : Option String) : OnLine (multiplicity before after text?) := by
  unfold multiplicity
  split
  · split
    · decide
    · simp only [onLine_append, onLine_oneLine, hbefore, hafter, and_true, true_and]
      decide
  · decide

/-- The text of a role behind a link. -/
def labelText : Option String → String
  | some role => if role.isEmpty then "" else " : " ++ oneLine role
  | none => ""

theorem relationshipLine_eq (aliasOf : String → String) (r : Relationship) :
    relationshipLine aliasOf r = aliasOf r.source.id ++ multiplicity " " "" r.sourceMultiplicity ++ " " ++
      arrow r.kind ++ " " ++ multiplicity "" " " r.targetMultiplicity ++ aliasOf r.target.id ++
        labelText r.targetRole := rfl

theorem isPlain_labelText (role? : Option String) : IsPlain (labelText role?) := by
  unfold labelText
  split
  · split
    · decide
    · exact isPlain_append.mpr ⟨by decide, isPlain_oneLine _⟩
  · decide

theorem isPlain_arrow (kind : RelationshipKind) : IsPlain (arrow kind) := by
  cases kind <;> decide

theorem onLine_relationshipLine (d : Diagram) (r : Relationship) :
    OnLine (relationshipLine (aliasOf d) r) := by
  have hspace : OnLine " " := by decide
  have hempty : OnLine "" := by decide
  simp only [relationshipLine_eq, onLine_append, (isPlain_aliasOf d _).onLine, (isPlain_arrow _).onLine, hspace,
    and_true, onLine_multiplicity hspace hempty, onLine_multiplicity hempty hspace,
    (isPlain_labelText _).onLine]

/-! ## The lines of a diagram -/

/-- The classifiers of a namespace with their aliases, in diagram order. -/
def membersOf (d : Diagram) (name : String) : List (Classifier × String) :=
  (aliased d).filter fun p => p.1.namespaceName == name

theorem isAlias_of_mem_membersOf {name : String} {p : Classifier × String} (h : p ∈ membersOf d name) :
    IsAlias p.2 := isAlias_of_mem_aliased (List.mem_of_mem_filter h)

/-- The lines of classifiers one after another. -/
def declarationLines (members : List (Classifier × String)) : List String :=
  members.flatMap fun p => classifierLines p.1 p.2 ++ [""]

theorem packageLines_eq (d : Diagram) (name : String) : packageLines d name =
    if name.isEmpty then declarationLines (membersOf d name)
    else ["package " ++ oneLine name ++ " \x7b"] ++ declarationLines (membersOf d name) ++ ["\x7d", ""] := rfl

theorem mem_declarationLines {members : List (Classifier × String)} (h : line ∈ declarationLines members) :
    (∃ p ∈ members, line = headerLine p.1 p.2) ∨ IsPlain line := by
  obtain ⟨p, hp, hline⟩ := List.mem_flatMap.mp h
  rcases List.mem_append.mp hline with hline | hline
  · exact (mem_classifierLines hline).imp_left fun heq => ⟨p, hp, heq⟩
  · exact .inr (List.mem_singleton.mp hline ▸ by decide)

theorem mem_packageLines {name : String} (h : line ∈ packageLines d name) :
    (∃ p ∈ aliased d, line = headerLine p.1 p.2) ∨ IsPlain line := by
  have hmember (h : line ∈ declarationLines (membersOf d name)) :
      (∃ p ∈ aliased d, line = headerLine p.1 p.2) ∨ IsPlain line :=
    (mem_declarationLines h).imp_left fun ⟨p, hp, heq⟩ => ⟨p, List.mem_of_mem_filter hp, heq⟩
  have hopening : IsPlain ("package " ++ oneLine name ++ " \x7b") := by
    simp only [isPlain_append, isPlain_oneLine]
    decide
  have hclosing : ∀ line ∈ ["\x7d", ""], IsPlain line := by decide
  rw [packageLines_eq] at h
  split at h
  · exact hmember h
  · rw [List.mem_append, List.mem_append, List.mem_singleton] at h
    rcases h with (rfl | h) | h
    · exact .inr hopening
    · exact hmember h
    · exact .inr (hclosing line h)

/-- A line of a picture is the header of a classifier, belongs to a relationship, or has no quotes. -/
theorem lines_cases (h : line ∈ lines d) : (∃ p ∈ aliased d, line = headerLine p.1 p.2) ∨
    (∃ r ∈ d.relationships, line = relationshipLine (aliasOf d) r) ∨ IsPlain line := by
  have hstart : ∀ line ∈ ["@startuml"] ++ look ++ [""], IsPlain line := by decide +kernel
  have htitle : ∀ line ∈ if d.name.isEmpty then [] else ["title " ++ oneLine d.name, ""], IsPlain line := by
    split
    · exact List.forall_mem_nil _
    · rw [List.forall_mem_cons, isPlain_append]
      exact ⟨⟨by decide, isPlain_oneLine d.name⟩, by decide⟩
  have hend : ∀ line ∈ ["", "@enduml"], IsPlain line := by decide
  rw [lines, List.mem_append, List.mem_append, List.mem_append, List.mem_append] at h
  rcases h with (((h | h) | h) | h) | h
  · exact .inr (.inr (hstart line h))
  · exact .inr (.inr (htitle line h))
  · obtain ⟨name, -, h⟩ := List.mem_flatMap.mp h
    exact (mem_packageLines h).imp_right .inr
  · obtain ⟨r, hr, rfl⟩ := List.mem_map.mp h
    exact .inr (.inl ⟨r, hr, rfl⟩)
  · exact .inr (.inr (hend line h))

/-- Whatever texts a diagram has, none of them goes beyond its line. -/
theorem onLine_lines (d : Diagram) : ∀ line ∈ lines d, OnLine line := by
  intro line hline
  obtain ⟨p, hp, rfl⟩ | ⟨r, -, rfl⟩ | hplain := lines_cases hline
  · exact onLine_headerLine p.1 (isAlias_of_mem_aliased hp)
  · exact onLine_relationshipLine d r
  · exact hplain.onLine

theorem separates_newline : Path.Separates "\n" '\n' := by
  constructor <;> decide

/-- Splitting the text of a diagram gives its lines, and nothing behind the last one. -/
theorem splitOn_render (d : Diagram) : (render d).splitOn "\n" = lines d ++ [""] := by
  have hlines : ∀ line ∈ lines d, '\n' ∉ line.toList :=
    fun line hline => newline_notMem_of_onLine (onLine_lines d line hline)
  have hne : lines d ≠ [] := by simp [lines]
  have hrender : render d = "\n".intercalate (lines d) ++ "\n" ++ "" := String.append_empty.symm
  rw [hrender, Path.splitOn_append separates_newline, Path.splitOn_intercalate separates_newline hne hlines,
    Path.splitOn_piece separates_newline (by simp)]

end Lines

end ClassAtlas.PlantUml
