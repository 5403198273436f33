import ClassAtlas.Proofs.NeededImports
import ClassAtlas.Proofs.PictureLines

/-! # The outline of a picture

The text of a diagram can be read back as far as its outline goes: which classifiers are declared in
which block under which alias, and which aliases are linked. Reading goes line by line and knows nothing
of the diagram; what stands in a body is passed over. The text of a diagram reads as each classifier
declared once, in the block of its namespace, and each relationship linked once, between the aliases of
its ends, whatever texts the diagram holds. -/

namespace ClassAtlas.PlantUml

/-! ## Reading -/

/-- A declared classifier: what it is, its name on one line, and its alias. -/
structure Declared where
  keyword : String
  name : String
  aliasName : String
deriving Repr, DecidableEq

/-- A link between two aliases. -/
structure Link where
  source : String
  arrow : String
  target : String
deriving Repr, DecidableEq

/-- What a line does to the outline. -/
inductive Line where
  | plain
  /-- Stands in a body. -/
  | member
  /-- Opens a block of settings. -/
  | settings
  | package (label : String)
  | declaration (x : Declared)
  | close
  | link (x : Link)
deriving Repr, DecidableEq

/-- What follows a quoted text and the space behind it; any other text is left as it is. -/
def skipQuoted : List Char → List Char
  | '"' :: rest => (rest.dropWhile (· != '"')).drop 2
  | rest => rest

/-- What may stand behind a link: nothing, or a label. -/
def isLabel : List Char → Bool
  | [] | ' ' :: ':' :: ' ' :: _ => true
  | _ => false

/-- An alias, an arrow and an alias, the arrow maybe with a quoted text before or behind it. -/
def Line.ofLink? (cs : List Char) : Option Line :=
  match cs.dropWhile isAliasChar with
  | ' ' :: near =>
    match (skipQuoted near).dropWhile (· != ' ') with
    | ' ' :: far =>
      if isLabel ((skipQuoted far).dropWhile isAliasChar) then
        some (.link ⟨String.ofList (cs.takeWhile isAliasChar),
          String.ofList ((skipQuoted near).takeWhile (· != ' ')),
          String.ofList ((skipQuoted far).takeWhile isAliasChar)⟩)
      else none
    | _ => none
  | _ => none

/-- A keyword, a quoted name, and an alias, at which a body opens. -/
def Line.ofDeclaration? (cs : List Char) : Option Line :=
  match cs.dropWhile (· != '"') with
  | '"' :: quoted =>
    match quoted.dropWhile (· != '"') with
    | '"' :: ' ' :: 'a' :: 's' :: ' ' :: named =>
      if named.dropWhile isAliasChar = [' ', '\x7b'] then
        some (.declaration ⟨String.ofList (cs.takeWhile (· != '"')).dropLast,
          String.ofList (quoted.takeWhile (· != '"')), String.ofList (named.takeWhile isAliasChar)⟩)
      else none
    | _ => none
  | _ => none

/-- What is behind the word for a package, up to where it opens. -/
def Line.ofPackage? (cs : List Char) : Option Line :=
  match (cs.drop 8).reverse with
  | '\x7b' :: ' ' :: label => some (.package (String.ofList label.reverse))
  | _ => none

/-- The first word says what a line is: only an alias holds an underscore, and what is indented has no
first word. -/
def Line.ofChars? (cs : List Char) : Option Line :=
  let word := cs.takeWhile (· != ' ')
  if '_' ∈ word then ofLink? cs
  else match String.ofList word with
    | "" => some (if cs.isEmpty then .plain else .member)
    | "@startuml" | "@enduml" | "title" => some .plain
    | "\x7d" => some .close
    | "skinparam" => some (if cs.getLast? = some '\x7b' then .settings else .plain)
    | "package" => ofPackage? cs
    | "class" | "abstract" | "interface" | "enum" => ofDeclaration? cs
    | _ => none

/-- The outline of a picture: what is declared outside of all packages, the packages with what is
declared in each, and the links, all in the order of the text. -/
structure Outline where
  loose : List Declared := []
  packages : List (String × List Declared) := []
  links : List Link := []
deriving Repr, DecidableEq

/-- An outline that is being read, with the package that is open and whether a body is. -/
structure Reading where
  outline : Outline := {}
  package? : Option (String × List Declared) := none
  inBody : Bool := false
deriving Repr, DecidableEq

/-- Enters declarations where they stand. -/
def Reading.declare (r : Reading) (xs : List Declared) : Reading :=
  match r.package? with
  | none => { r with outline := { r.outline with loose := r.outline.loose ++ xs } }
  | some (label, inside) => { r with package? := some (label, inside ++ xs) }

/-- Goes on by a line. A body holds members only, and packages and links stand outside of all packages. -/
def Reading.next? (r : Reading) (line : Line) : Option Reading :=
  match line, r.inBody, r.package? with
  | .member, true, _ => some r
  | .close, true, _ => some { r with inBody := false }
  | .plain, false, _ => some r
  | .close, false, some package =>
    some { r with
      outline := { r.outline with packages := r.outline.packages ++ [package] }
      package? := none }
  | .declaration x, false, _ => some { r.declare [x] with inBody := true }
  | .settings, false, none => some { r with inBody := true }
  | .package label, false, none => some { r with package? := some (label, []) }
  | .link x, false, none => some { r with outline := { r.outline with links := r.outline.links ++ [x] } }
  | _, _, _ => none

def Reading.step (r : Reading) (line : String) : Option Reading :=
  (Line.ofChars? line.toList).bind r.next?

/-- The outline that a text has; nothing is open at its end. -/
def Outline.ofText? (text : String) : Option Outline := do
  let r ← (text.splitOn "\n").foldlM Reading.step {}
  if r.inBody || r.package?.isSome then none else some r.outline

/-! ## Lines -/

section Lines

variable {p : Char → Bool} {x : Char} {xs ys : List Char} {a b : String} {c : Classifier}

theorem takeWhile_stop (hall : ∀ c ∈ xs, p c = true) (hstop : p x = false) :
    (xs ++ x :: ys).takeWhile p = xs := by
  rw [List.takeWhile_append_of_pos hall, List.takeWhile_cons_of_neg (by simp [hstop]), List.append_nil]

theorem dropWhile_stop (hall : ∀ c ∈ xs, p c = true) (hstop : p x = false) :
    (xs ++ x :: ys).dropWhile p = x :: ys := by
  rw [List.dropWhile_append_of_pos hall, List.dropWhile_cons_of_neg (by simp [hstop])]

theorem bne_of_notMem (h : x ∉ xs) : ∀ c ∈ xs, (c != x) = true :=
  fun _ hc => bne_iff_ne.mpr (ne_of_mem_of_not_mem hc h)

theorem IsAlias.space_notMem (h : IsAlias a) : ' ' ∉ a.toList :=
  fun hmem => absurd (h.chars _ hmem) (by decide)

theorem ofChars?_indented (s : String) : Line.ofChars? ("  " ++ s).toList = some .member := by
  simp [Line.ofChars?]

theorem ofChars?_title (s : String) : Line.ofChars? ("title " ++ s).toList = some .plain := by
  simp [Line.ofChars?]

theorem ofChars?_package (label : String) :
    Line.ofChars? ("package " ++ label ++ " \x7b").toList = some (.package label) := by
  simp [Line.ofChars?, Line.ofPackage?]

theorem ofDeclaration?_eq {before : List Char} (hbefore : ∀ c ∈ before, (c != '"') = true) (name : String)
    (ha : IsAlias a) :
    Line.ofDeclaration? (before ++ '"' :: ((oneLine name).toList ++
      '"' :: ' ' :: 'a' :: 's' :: ' ' :: (a.toList ++ [' ', '\x7b']))) =
        some (.declaration ⟨String.ofList before.dropLast, oneLine name, a⟩) := by
  have hquote : ('"' != '"') = false := by decide
  have hspace : isAliasChar ' ' = false := by decide
  have hname := bne_of_notMem (quote_notMem_oneLine name)
  simp only [Line.ofDeclaration?, dropWhile_stop hbefore hquote, takeWhile_stop hbefore hquote,
    dropWhile_stop hname hquote, takeWhile_stop hname hquote, dropWhile_stop ha.chars hspace,
    takeWhile_stop ha.chars hspace, if_true, String.ofList_toList]

theorem ofChars?_declaration (c : Classifier) (ha : IsAlias a) :
    Line.ofChars? (keyword c ++ " \"" ++ oneLine c.name ++ "\" as " ++ a ++ " \x7b").toList =
      some (.declaration ⟨keyword c, oneLine c.name, a⟩) := by
  have hkeyword : keyword c ∈ ["class", "abstract class", "interface", "enum"] := by
    unfold keyword
    cases c.kind <;> cases c.isAbstract <;> decide
  have hline : (keyword c ++ " \"" ++ oneLine c.name ++ "\" as " ++ a ++ " \x7b").toList =
      (keyword c ++ " ").toList ++ '"' :: ((oneLine c.name).toList ++
        '"' :: ' ' :: 'a' :: 's' :: ' ' :: (a.toList ++ [' ', '\x7b'])) := by
    simp
  rw [hline]
  generalize keyword c = word at hkeyword
  have hbefore : ∀ c ∈ (word ++ " ").toList, (c != '"') = true := by
    rw [← List.all_eq_true]
    revert word
    decide
  have hdeclaration := ofDeclaration?_eq hbefore c.name ha
  have hlast : String.ofList (word ++ " ").toList.dropLast = word := by simp
  rw [hlast] at hdeclaration
  simp only [List.mem_cons, List.not_mem_nil, or_false] at hkeyword
  rcases hkeyword with rfl | rfl | rfl | rfl <;> simpa [Line.ofChars?] using hdeclaration

/-! ## Links -/

/-- A multiplicity before an arrow stands as the one behind it does. -/
theorem multiplicity_space (text? : Option String) :
    multiplicity " " "" text? ++ " " = " " ++ multiplicity "" " " text? := by
  unfold multiplicity
  split
  · split
    · rfl
    · simp [← String.toList_inj]
  · rfl

theorem skipQuoted_multiplicity (text? : Option String) {rest : List Char} (h : rest.head? ≠ some '"') :
    skipQuoted ((multiplicity "" " " text?).toList ++ rest) = rest := by
  have hnone : skipQuoted rest = rest := by
    cases rest with
    | nil => rfl
    | cons x rest =>
      unfold skipQuoted
      split
      · simp_all
      · rfl
  unfold multiplicity
  split
  · rename_i text
    split
    · simpa using hnone
    · have hquoted : ("" ++ "\"" ++ oneLine text ++ "\"" ++ " ").toList ++ rest =
          '"' :: ((oneLine text).toList ++ '"' :: ' ' :: rest) := by simp
      rw [hquoted, skipQuoted, dropWhile_stop (bne_of_notMem (quote_notMem_oneLine text)) (by decide)]
      rfl
  · simpa using hnone

theorem isLabel_labelText (role? : Option String) : isLabel (labelText role?).toList = true ∧
    ∀ c ∈ (labelText role?).toList.head?, isAliasChar c = false := by
  unfold labelText
  split
  · split
    · simp [isLabel]
    · simp [isLabel, isAliasChar]
  · simp [isLabel]

theorem arrow_chars (kind : RelationshipKind) : (∀ c ∈ (arrow kind).toList, (c != ' ') = true) ∧
    ∀ rest, ((arrow kind).toList ++ rest).head? ≠ some '"' := by
  cases kind <;> simp [arrow]

theorem span_label (ha : IsAlias a) (role? : Option String) :
    (a.toList ++ (labelText role?).toList).takeWhile isAliasChar = a.toList ∧
      (a.toList ++ (labelText role?).toList).dropWhile isAliasChar = (labelText role?).toList := by
  obtain ⟨-, hstop⟩ := isLabel_labelText role?
  cases hlabel : (labelText role?).toList with
  | nil => simpa using ha.chars
  | cons x xs =>
    have hx : isAliasChar x = false := hstop x (by simp [hlabel])
    exact ⟨takeWhile_stop ha.chars hx, dropWhile_stop ha.chars hx⟩

theorem ofChars?_link {aliasOf : String → String} {r : Relationship}
    (hsource : IsAlias (aliasOf r.source.id)) (htarget : IsAlias (aliasOf r.target.id)) :
    Line.ofChars? (relationshipLine aliasOf r).toList =
      some (.link ⟨aliasOf r.source.id, arrow r.kind, aliasOf r.target.id⟩) := by
  have hspace : (' ' != ' ') = false := by decide
  have hstop : isAliasChar ' ' = false := by decide
  obtain ⟨harrow, hhead⟩ := arrow_chars r.kind
  obtain ⟨htake, hdrop⟩ := span_label htarget r.targetRole
  have hfar : (((aliasOf r.target.id).toList ++ (labelText r.targetRole).toList)).head? ≠ some '"' := by
    obtain ⟨first, rest, hcons⟩ := List.exists_cons_of_ne_nil (List.ne_nil_of_mem htarget.underscore)
    rw [hcons, List.cons_append, List.head?_cons]
    rintro ⟨⟩
    exact absurd (htarget.chars '"' (by simp [hcons])) (by decide)
  have hline : (relationshipLine aliasOf r).toList = (aliasOf r.source.id).toList ++
      ' ' :: ((multiplicity "" " " r.sourceMultiplicity).toList ++ ((arrow r.kind).toList ++
        ' ' :: ((multiplicity "" " " r.targetMultiplicity).toList ++
          ((aliasOf r.target.id).toList ++ (labelText r.targetRole).toList)))) := by
    have hassoc : relationshipLine aliasOf r = aliasOf r.source.id ++
        (multiplicity " " "" r.sourceMultiplicity ++ " ") ++ arrow r.kind ++ " " ++
          multiplicity "" " " r.targetMultiplicity ++ aliasOf r.target.id ++ labelText r.targetRole := by
      simp only [relationshipLine_eq, String.append_assoc]
    rw [hassoc, multiplicity_space]
    simp
  rw [hline, Line.ofChars?, takeWhile_stop (bne_of_notMem hsource.space_notMem) hspace, if_pos hsource.underscore]
  simp only [Line.ofLink?, dropWhile_stop hsource.chars hstop, takeWhile_stop hsource.chars hstop,
    skipQuoted_multiplicity _ (hhead _), dropWhile_stop harrow hspace, takeWhile_stop harrow hspace,
    skipQuoted_multiplicity _ hfar, htake, hdrop, (isLabel_labelText r.targetRole).1, if_true,
    String.ofList_toList]

end Lines

/-! ## Blocks -/

/-- Reading goes on from one place to another by these lines. -/
def Reads (r : Reading) (lines : List String) (r' : Reading) : Prop :=
  lines.foldlM Reading.step r = some r'

section Blocks

variable {r r' r'' : Reading} {o : Outline} {xs ys : List Declared} {first rest : List String}
  {line : String} {d : Diagram} {c : Classifier} {a : String}

theorem reads_nil : Reads r [] r := rfl

theorem Reads.append (h : Reads r first r') (hrest : Reads r' rest r'') : Reads r (first ++ rest) r'' := by
  rw [Reads, List.foldlM_append, h]
  exact hrest

theorem reads_line {x : Line} (hline : Line.ofChars? line.toList = some x) (hnext : r.next? x = some r') :
    Reads r [line] r' := by
  simp [Reads, Reading.step, hline, hnext]

/-- Lines of a kind that changes nothing. -/
theorem reads_idle {x : Line} (hidle : r.next? x = some r)
    (h : ∀ line ∈ first, Line.ofChars? line.toList = some x) : Reads r first r := by
  induction first with
  | nil => exact reads_nil
  | cons line rest ih =>
    obtain ⟨hline, hrest⟩ := List.forall_mem_cons.mp h
    exact (reads_line hline hidle).append (ih hrest)

theorem next?_plain (hbody : r.inBody = false) : r.next? .plain = some r := by
  simp only [Reading.next?, hbody]

theorem reads_plain (hbody : r.inBody = false)
    (h : ∀ line ∈ first, Line.ofChars? line.toList = some .plain) : Reads r first r :=
  reads_idle (next?_plain hbody) h

theorem declare_nil : r.declare [] = r := by
  obtain ⟨outline, package?, inBody⟩ := r
  cases package? <;> simp [Reading.declare]

theorem declare_declare : (r.declare xs).declare ys = r.declare (xs ++ ys) := by
  obtain ⟨outline, package?, inBody⟩ := r
  cases package? <;> simp [Reading.declare]

theorem inBody_declare : (r.declare xs).inBody = r.inBody := by
  obtain ⟨outline, package?, inBody⟩ := r
  cases package? <;> rfl

theorem next?_declaration (hbody : r.inBody = false) (x : Declared) :
    r.next? (.declaration x) = some { r.declare [x] with inBody := true } := by
  simp only [Reading.next?, hbody]

/-- A body that has been opened is closed again. -/
theorem next?_close (hbody : r.inBody = false) : Reading.next? { r with inBody := true } .close = some r := by
  obtain ⟨outline, package?, inBody⟩ := r
  cases hbody
  rfl

/-- A declaration of a classifier under an alias. -/
def declaredAs (c : Classifier) (aliasName : String) : Declared := ⟨keyword c, oneLine c.name, aliasName⟩

theorem reads_classifier (hbody : r.inBody = false) (c : Classifier) (ha : IsAlias a) :
    Reads r (classifierLines c a ++ [""]) (r.declare [declaredAs c a]) := by
  have hmembers : Reads { r.declare [declaredAs c a] with inBody := true } (memberLines c)
      { r.declare [declaredAs c a] with inBody := true } := by
    refine reads_idle (x := .member) rfl fun line hline => ?_
    obtain ⟨-, s, rfl⟩ := memberLine_indented hline
    exact ofChars?_indented s
  have hheader := reads_line (ofChars?_declaration c ha) (next?_declaration hbody (declaredAs c a))
  have hdeclared : (r.declare [declaredAs c a]).inBody = false := inBody_declare.trans hbody
  have hend : Reads { r.declare [declaredAs c a] with inBody := true } ["\x7d"]
      (r.declare [declaredAs c a]) := reads_line rfl (next?_close hdeclared)
  rw [classifierLines_eq]
  exact ((hheader.append hmembers).append hend).append (reads_line rfl (next?_plain hdeclared))

theorem reads_classifiers {members : List (Classifier × String)} (hbody : r.inBody = false)
    (h : ∀ p ∈ members, IsAlias p.2) :
    Reads r (declarationLines members) (r.declare (members.map fun p => declaredAs p.1 p.2)) := by
  induction members generalizing r with
  | nil =>
    rw [List.map_nil, declare_nil]
    exact reads_nil
  | cons p members ih =>
    obtain ⟨hp, hmembers⟩ := List.forall_mem_cons.mp h
    have hrest := ih (r := r.declare [declaredAs p.1 p.2]) (inBody_declare.trans hbody) hmembers
    rw [declare_declare] at hrest
    exact (reads_classifier hbody p.1 hp).append hrest

/-- The declarations of a namespace: with a package of its own, or without if it has no name. -/
def Outline.enter (o : Outline) (namespaceName : String) (xs : List Declared) : Outline :=
  if namespaceName.isEmpty then { o with loose := o.loose ++ xs }
  else { o with packages := o.packages ++ [(oneLine namespaceName, xs)] }

/-- The declarations of a namespace, in diagram order. -/
def declaredIn (d : Diagram) (namespaceName : String) : List Declared :=
  (membersOf d namespaceName).map fun p => declaredAs p.1 p.2

theorem reads_package (o : Outline) (namespaceName : String) :
    Reads { outline := o } (packageLines d namespaceName)
      { outline := o.enter namespaceName (declaredIn d namespaceName) } := by
  have hmembers : ∀ p ∈ membersOf d namespaceName, IsAlias p.2 := fun p => isAlias_of_mem_membersOf
  rw [packageLines_eq, Outline.enter]
  split
  · exact reads_classifiers (r := { outline := o }) rfl hmembers
  · let inside : Reading := { outline := o, package? := some (oneLine namespaceName, []) }
    have hopen : Reads { outline := o } ["package " ++ oneLine namespaceName ++ " \x7b"] inside :=
      reads_line (ofChars?_package _) rfl
    exact (hopen.append (reads_classifiers rfl hmembers)).append
      ((reads_line rfl rfl).append (reads_line rfl rfl))

theorem reads_packages (o : Outline) (names : List String) :
    Reads { outline := o } (names.flatMap (packageLines d))
      { outline := { o with
          loose := o.loose ++ (names.filter (·.isEmpty)).flatMap (declaredIn d)
          packages := o.packages ++
            (names.filter fun n => !n.isEmpty).map fun n => (oneLine n, declaredIn d n) } } := by
  induction names generalizing o with
  | nil => simpa using reads_nil
  | cons name names ih =>
    have hrest := (reads_package o name).append (ih (o.enter name (declaredIn d name)))
    rw [List.flatMap_cons]
    cases hname : name.isEmpty <;> simpa [Outline.enter, hname] using hrest

theorem reads_links {aliasOf : String → String} {relationships : List Relationship}
    (h : ∀ r ∈ relationships, IsAlias (aliasOf r.source.id) ∧ IsAlias (aliasOf r.target.id))
    (o : Outline) : Reads { outline := o } (relationships.map (relationshipLine aliasOf))
      { outline := { o with links := o.links ++ relationships.map fun r =>
          ⟨aliasOf r.source.id, arrow r.kind, aliasOf r.target.id⟩ } } := by
  induction relationships generalizing o with
  | nil => simpa using reads_nil
  | cons r relationships ih =>
    obtain ⟨⟨hsource, htarget⟩, hrest⟩ := List.forall_mem_cons.mp h
    have hline : Reads { outline := o } [relationshipLine aliasOf r] _ :=
      reads_line (ofChars?_link hsource htarget) rfl
    simpa using hline.append (ih hrest _)

/-! ## The text of a diagram -/

theorem map_fst_aliased (d : Diagram) : (aliased d).map (·.1) = d.classifiers := by
  rw [aliased, List.map_map]
  exact List.zipIdx_map_fst 0 d.classifiers

theorem mem_namespaces {name : String} :
    name ∈ namespaces d ↔ ∃ c ∈ d.classifiers, c.namespaceName = name :=
  Java.mem_sortedDistinct.trans List.mem_map

/-- At most one of the namespaces of a diagram is without a name. -/
theorem flatMap_unnamed (d : Diagram) :
    ((namespaces d).filter (·.isEmpty)).flatMap (declaredIn d) = declaredIn d "" := by
  have hnodup : (namespaces d).Nodup := (Java.increasing_sortedDistinct _).imp ne_of_lt
  have hfilter : (namespaces d).filter (·.isEmpty) = List.replicate ((namespaces d).count "") "" := by
    rw [← List.filter_beq]
    exact List.filter_congr fun name _ => by rw [Bool.eq_iff_iff, String.isEmpty_iff, beq_iff_eq]
  rw [hfilter, hnodup.count]
  split
  · exact List.flatMap_singleton _ _
  · rename_i hnone
    have hmembers : membersOf d "" = [] := by
      refine List.filter_eq_nil_iff.mpr fun p hp hname => hnone (mem_namespaces.mpr ?_)
      exact ⟨p.1, map_fst_aliased d ▸ List.mem_map_of_mem hp, beq_iff_eq.mp hname⟩
    rw [declaredIn, hmembers]
    rfl

/-- The namespaces that have a name. -/
def blocks (d : Diagram) : List String := (namespaces d).filter fun name => !name.isEmpty

theorem mem_blocks {name : String} :
    name ∈ blocks d ↔ name ≠ "" ∧ ∃ c ∈ d.classifiers, c.namespaceName = name := by
  rw [blocks, List.mem_filter, mem_namespaces]
  simp [and_comm]

theorem increasing_blocks (d : Diagram) : (blocks d).Pairwise (· < ·) :=
  (Java.increasing_sortedDistinct _).filter _

/-- What reading the text of a diagram is to give. -/
def outlineOf (d : Diagram) : Outline where
  loose := declaredIn d ""
  packages := (blocks d).map fun name => (oneLine name, declaredIn d name)
  links := d.relationships.map fun r => ⟨aliasOf d r.source.id, arrow r.kind, aliasOf d r.target.id⟩

/-- If ends have aliases, reading the text of a diagram gives its outline. -/
theorem ofText?_render (hlinks : ∀ r ∈ d.relationships,
    IsAlias (aliasOf d r.source.id) ∧ IsAlias (aliasOf d r.target.id)) :
    Outline.ofText? (render d) = some (outlineOf d) := by
  have hlook : Reads {} (["@startuml"] ++ look ++ [""]) {} := rfl
  have htitle : Reads {} (if d.name.isEmpty then [] else ["title " ++ oneLine d.name, ""]) {} := by
    refine reads_plain rfl ?_
    split
    · exact List.forall_mem_nil _
    · exact List.forall_mem_cons.mpr ⟨ofChars?_title _, by decide⟩
  have hpackages : Reads {} ((namespaces d).flatMap (packageLines d))
      { outline := { outlineOf d with links := [] } } := by
    have hread := reads_packages (d := d) {} (namespaces d)
    rwa [flatMap_unnamed] at hread
  have hend : Reads { outline := outlineOf d } ["", "@enduml"] { outline := outlineOf d } :=
    reads_plain rfl (by decide)
  have hlines : Reads {} (lines d) { outline := outlineOf d } :=
    (((hlook.append htitle).append hpackages).append (reads_links hlinks _)).append hend
  have hlast : Reads { outline := outlineOf d } [""] { outline := outlineOf d } := reads_plain rfl (by decide)
  have hall := hlines.append hlast
  rw [Outline.ofText?, splitOn_render, hall]
  rfl

end Blocks

/-! ## Classifiers and their aliases -/

section Places

variable {w : Identity String} {d : Diagram} {p : Classifier × String} {a b : Classifier}

theorem nodup_ids (h : d.Tracked w) : (d.classifiers.map (·.id)).Nodup := by
  have hkeys : (d.classifiers.map (·.key)).Nodup := h.nodup
  exact (hkeys.of_map _).map_on fun _ ha _ hb => h.eq_of_id ha hb

/-- The alias under which a classifier is declared is the one that its id stands for. -/
theorem aliasOf_eq (h : d.Tracked w) (hp : p ∈ aliased d) : aliasOf d p.1.id = p.2 := by
  have hnodup : ((aliased d).map fun p => p.1.id).Nodup := by
    have hids := nodup_ids h
    rwa [← map_fst_aliased, List.map_map] at hids
  cases hfound : (aliased d).find? fun q => q.1.id == p.1.id with
  | none => exact absurd (List.find?_eq_none.mp hfound p hp) (by simp)
  | some q =>
    have hid : q.1.id = p.1.id := by simpa using List.find?_some hfound
    have hq : q = p := List.inj_on_of_nodup_map hnodup (List.mem_of_find?_eq_some hfound) hp hid
    rw [aliasOf_def, hfound, hq]
    rfl

theorem aliased_eq (h : d.Tracked w) : aliased d = d.classifiers.map fun c => (c, aliasOf d c.id) := by
  have hself : ∀ p ∈ aliased d, (p.1, aliasOf d p.1.id) = id p :=
    fun p hp => Prod.ext rfl (aliasOf_eq h hp)
  calc aliased d
    _ = (aliased d).map fun p => (p.1, aliasOf d p.1.id) := by
      rw [List.map_congr_left hself, List.map_id]
    _ = ((aliased d).map (·.1)).map fun c => (c, aliasOf d c.id) := by
      rw [List.map_map]
      rfl
    _ = d.classifiers.map fun c => (c, aliasOf d c.id) := by rw [map_fst_aliased]

theorem mem_aliased_of_mem (h : d.Tracked w) (ha : a ∈ d.classifiers) : (a, aliasOf d a.id) ∈ aliased d := by
  rw [aliased_eq h]
  exact List.mem_map_of_mem ha

/-- Two classifiers of a diagram have no alias in common, however alike their names are: it ends in the
place of one of them. -/
theorem eq_of_aliasOf_eq (h : d.Tracked w) (ha : a ∈ d.classifiers) (hb : b ∈ d.classifiers)
    (heq : aliasOf d a.id = aliasOf d b.id) : a = b := by
  obtain ⟨i, hi, hai⟩ := mem_aliased.mp (mem_aliased_of_mem h ha)
  obtain ⟨j, hj, hbj⟩ := mem_aliased.mp (mem_aliased_of_mem h hb)
  have hplace : i = j := shortName_injective (hai.symm.trans (heq.trans hbj))
  rw [hplace, hj] at hi
  exact (Option.some.inj hi).symm

theorem declaredIn_eq (h : d.Tracked w) (name : String) : declaredIn d name =
    (d.classifiers.filter (·.namespaceName == name)).map fun c => declaredAs c (aliasOf d c.id) := by
  rw [declaredIn, membersOf, aliased_eq h, List.filter_map, List.map_map]
  rfl

/-- What is sorted by keys, each key taken once, is all there. -/
theorem perm_flatMap_filter {keys : List String} {items : List Classifier} (hkeys : keys.Nodup)
    (h : ∀ c ∈ items, c.namespaceName ∈ keys) :
    (keys.flatMap fun key => items.filter (·.namespaceName == key)).Perm items := by
  induction keys generalizing items with
  | nil =>
    rw [List.eq_nil_iff_forall_not_mem.mpr fun c hc => List.not_mem_nil (h c hc)]
    rfl
  | cons key keys ih =>
    obtain ⟨hkey, hkeys⟩ := List.nodup_cons.mp hkeys
    have hrest : ∀ c ∈ items.filter fun c => !(c.namespaceName == key), c.namespaceName ∈ keys := by
      intro c hc
      obtain ⟨hc, hother⟩ := List.mem_filter.mp hc
      exact List.mem_of_ne_of_mem (by simpa using hother) (h c hc)
    have hsame : ∀ other ∈ keys, (items.filter fun c => !(c.namespaceName == key)).filter
        (·.namespaceName == other) = items.filter (·.namespaceName == other) := by
      intro other hother
      have hne : other ≠ key := ne_of_mem_of_not_mem hother hkey
      rw [List.filter_filter]
      refine List.filter_congr fun c _ => ?_
      by_cases hc : c.namespaceName = other <;> simp [hc, hne]
    rw [List.flatMap_cons, ← List.flatMap_congr hsame]
    exact ((ih hkeys hrest).append_left _).trans (List.filter_append_perm _ items)

theorem perm_declarations (h : d.Tracked w) :
    ((outlineOf d).loose ++ (outlineOf d).packages.flatMap (·.2)).Perm
      (d.classifiers.map fun c => declaredAs c (aliasOf d c.id)) := by
  have hkeys : ("" :: blocks d).Nodup :=
    List.nodup_cons.mpr ⟨fun hmem => (mem_blocks.mp hmem).1 rfl, (increasing_blocks d).imp ne_of_lt⟩
  have hcovered : ∀ c ∈ d.classifiers, c.namespaceName ∈ "" :: blocks d := by
    intro c hc
    by_cases hname : c.namespaceName = ""
    · exact hname ▸ List.mem_cons_self
    · exact List.mem_cons_of_mem _ (mem_blocks.mpr ⟨hname, c, hc, rfl⟩)
  have hall := (perm_flatMap_filter hkeys hcovered).map fun c => declaredAs c (aliasOf d c.id)
  rw [List.map_flatMap, List.flatMap_cons, ← declaredIn_eq h,
    List.flatMap_congr fun name _ => (declaredIn_eq h name).symm] at hall
  rwa [outlineOf, List.flatMap_map]

theorem isAlias_aliasOf (h : d.Tracked w) (ha : a ∈ d.classifiers) : IsAlias (aliasOf d a.id) :=
  isAlias_of_mem_aliased (mem_aliased_of_mem h ha)

/-- The outline of a picture fits a diagram, with an alias for the classifier of each key, and a block for
each namespace that has a name. -/
structure Outline.Fits (o : Outline) (d : Diagram) (aliasOf : Nat → String) (blocks : List String) :
    Prop where
  apart : ∀ a ∈ d.classifiers, ∀ b ∈ d.classifiers, aliasOf a.key = aliasOf b.key → a = b
  chars : ∀ c ∈ d.classifiers, ∀ x ∈ (aliasOf c.key).toList, isAliasChar x = true
  ordered : blocks.Pairwise (· < ·)
  named : ∀ name, name ∈ blocks ↔ name ≠ "" ∧ ∃ c ∈ d.classifiers, c.namespaceName = name
  loose : o.loose = (d.classifiers.filter (·.namespaceName == "")).map fun c => declaredAs c (aliasOf c.key)
  packages : o.packages = blocks.map fun name => (oneLine name,
    (d.classifiers.filter (·.namespaceName == name)).map fun c => declaredAs c (aliasOf c.key))
  once : (o.loose ++ o.packages.flatMap (·.2)).Perm
    (d.classifiers.map fun c => declaredAs c (aliasOf c.key))
  links : o.links = d.relationships.map fun r =>
    ⟨aliasOf r.source.key, arrow r.kind, aliasOf r.target.key⟩

theorem fits_outlineOf (h : Reachable w d) :
    (outlineOf d).Fits d (fun key => aliasOf d (w.id key)) (blocks d) := by
  have hids : ∀ c ∈ d.classifiers, c.id = w.id c.key := fun c hc => h.tracked.id_eq hc
  have hall : d.classifiers.map (fun c => declaredAs c (aliasOf d c.id)) =
      d.classifiers.map fun c => declaredAs c (aliasOf d (w.id c.key)) :=
    List.map_congr_left fun c hc => by rw [hids c hc]
  have hdeclared : ∀ name, declaredIn d name = (d.classifiers.filter (·.namespaceName == name)).map
      fun c => declaredAs c (aliasOf d (w.id c.key)) := by
    intro name
    rw [declaredIn_eq h.tracked]
    exact List.map_congr_left fun c hc => by rw [hids c (List.mem_of_mem_filter hc)]
  exact {
    apart := fun a ha b hb heq => eq_of_aliasOf_eq h.tracked ha hb (by rwa [hids a ha, hids b hb])
    chars := fun c hc => hids c hc ▸ (isAlias_aliasOf h.tracked hc).chars
    ordered := increasing_blocks d
    named := fun _ => mem_blocks
    loose := hdeclared ""
    packages := List.map_congr_left fun name _ => by rw [hdeclared]
    once := hall ▸ perm_declarations h.tracked
    links := by
      refine List.map_congr_left fun r hr => ?_
      obtain ⟨a, ha, hsource⟩ := h.source_mem hr
      obtain ⟨b, hb, htarget⟩ := h.target_mem hr
      have hsourceId : r.source.id = w.id r.source.key := hsource ▸ hids a ha
      have htargetId : r.target.id = w.id r.target.key := htarget ▸ hids b hb
      rw [hsourceId, htargetId] }

/-- The text of a diagram has an outline, and it is that of the diagram. -/
theorem render_outline (h : Reachable w d) : ∃ o aliasOf blocks,
    Outline.ofText? (render d) = some o ∧ o.Fits d aliasOf blocks := by
  refine ⟨outlineOf d, fun key => aliasOf d (w.id key), blocks d, ofText?_render fun r hr => ?_,
    fits_outlineOf h⟩
  obtain ⟨a, ha, hsource⟩ := h.source_mem hr
  obtain ⟨b, hb, htarget⟩ := h.target_mem hr
  exact ⟨hsource ▸ isAlias_aliasOf h.tracked ha, htarget ▸ isAlias_aliasOf h.tracked hb⟩

end Places

/-- Two classes whose names differ in one character that aliases do not keep, in two namespaces, and one
that is named as the alias of another might be, without a namespace. -/
theorem render_outline_lines :
    let dashed := { bareClass 0 "a" with name := "Order-Line", namespaceName := "shop" }
    let spaced := { bareClass 1 "b" with name := "Order Line", namespaceName := "depot" }
    let numbered := { bareClass 2 "c" with name := "Order_Line_0" }
    let w : Identity String := ⟨fun key => ["a", "b", "c"].getD key "", fun _ => 2, fun _ => 1⟩
    let d : Diagram := { (DiagramOf.empty "shop" "" none none none {}).1 with
      elements := [.classifier dashed, .classifier spaced, .classifier numbered,
        .relationship (bareEdge 0 numbered spaced .association)]
      index := [("a", 0), ("b", 1), ("c", 2)] }
    Reachable w d ∧
      (aliased d).map (·.2) = ["Order_Line_0", "Order_Line_1", "Order_Line_0_2"] ∧
      ∃ o aliasOf blocks, Outline.ofText? (render d) = some o ∧ o.Fits d aliasOf blocks := by
  intro dashed spaced numbered w d
  have hreach : Reachable w d := by
    have hnew : Reachable w (DiagramOf.empty "shop" "" none none none {}).1 := .new ..
    have hdashed := hnew.withClassifier (c := dashed) rfl rfl
    have hspaced := hdashed.withClassifier (c := spaced) rfl rfl
    have hnumbered := hspaced.withClassifier (c := numbered) rfl rfl
    exact hnumbered.withRelationship (r := bareEdge 0 numbered spaced .association) (a := numbered)
      (b := spaced) (DiagramOf.mem_classifiers.mpr (by simp)) (DiagramOf.mem_classifiers.mpr (by simp))
      rfl rfl ⟨rfl, rfl⟩ rfl rfl
  exact ⟨hreach, by decide, render_outline hreach⟩

end ClassAtlas.PlantUml
