import ClassAtlas.Proofs.UnitMembers
import ClassAtlas.Proofs.NamesInTypes

/-! # The header of a unit's type

Behind the name of a type stand its clauses, each a word and the names it lists. The parser makes one
node of every clause that is there, and what is extracted from these nodes are the names, as they were
written. -/

namespace ClassAtlas.Java

open Phrase (starts startsAny)
open Declaration
open Extract (normalized)

/-! ## Names as types -/

section Names

variable {t next : Token} {ts rest : List Token} {name : String} {lead : Lead}

/-- A name is a type of its own if neither arguments nor brackets follow. -/
theorem Phrase.type?_name (hkind : t.kind = .word) (ht : t.isAnyOf ("@" :: Phrase.basicTypes) = false)
    (hnext : next.isAnyOf ["@", "<", ".", "["] = false) :
    Phrase.type? (t :: next :: rest) = some (next :: rest) := by
  obtain ⟨fuel, hfuel⟩ : ∃ fuel, budget (t :: next :: rest) = fuel + 5 :=
    ⟨budget (t :: next :: rest) - 5, by simp only [budget]; omega⟩
  have hat : starts "@" (t :: next :: rest) = false := isAnyOf_eq_false ht (by decide)
  have hbasic : startsAny basicTypes (t :: next :: rest) = false :=
    isAnyOf_mono ht (List.subset_cons_self ..)
  have hword : eatWord (t :: next :: rest) = some (next :: rest) := by simp [eatWord, hkind]
  have hangle : next.is "<" = false := isAnyOf_eq_false hnext (by decide)
  have hpoint : next.is "." = false := isAnyOf_eq_false hnext (by decide)
  have harguments : typeArguments (fuel + 1) (next :: rest) = none := by
    simp [typeArguments, eat, hangle]
  have hdimensions : dimensions (fuel + 3) (next :: rest) = next :: rest :=
    dimensions_eq (isAnyOf_eq_false hnext (by decide)) (isAnyOf_eq_false hnext (by decide))
  rw [type?, hfuel, type, annotations_eq hat, plainType, singleType, hbasic,
    if_neg Bool.false_ne_true, classType, hword]
  simp only [Option.bind_eq_bind, Option.bind_some, harguments, Option.getD_none]
  simp [eat, hpoint, hdimensions]

/-- A name is its own canonical text. -/
theorem normalize_name (h : IsName name) : TypeText.normalize name = name :=
  TypeText.normalize_eq (fun c hc => ((TypeNames.bare_of_isWord h.1).plain c hc).blank)
    fun c hc => Lexer.ne_of_isNamePart (Lexer.isNamePart_of_mem h.1 c hc) (by decide)

/-- A listed name as a node. -/
def itemTree (t : Token) : Tree := .node none .phrase [.word t]

theorem tidy_itemTree (h : t.comments = []) : Tidy (itemTree t) :=
  tidy_node _ (List.forall_mem_singleton.mpr (tidy_word h)) (by decide)

theorem normalized_itemTree (h : Spells t ⟨.word, name, lead⟩) (hname : IsName name) :
    normalized (itemTree t) = name := by
  have hstring : (itemTree t).string = String.ofList (t.text ++ []) := rfl
  rw [normalized, hstring, List.append_nil, h.text, String.ofList_toList, normalize_name hname]

/-- What may not follow a listed name. -/
def itemMarks : List String := ["@", "<", ".", "[", ","]

theorem type?_item (h : Spells t (.word name)) (hname : IsName name)
    (hnext : next.isAnyOf ["@", "<", ".", "["] = false) :
    Phrase.type? (t :: next :: rest) = some (next :: rest) :=
  Phrase.type?_name h.kind (h.isAnyOf_of_notMem (hname.notMem (by decide))) hnext

/-- Listed names are read one after another up to the token behind the last. -/
theorem separated_reads {names : List String} (hnames : ∀ name ∈ names, IsName name) (hne : names ≠ [])
    (h : List.Forall₂ Spells ts (listed (names.map fun name => [.word name])))
    (hnext : next.isAnyOf itemMarks = false) :
    ∃ items, (∀ item ∈ items, Tidy item) ∧ (items.filter (·.isNamed)).map normalized = names ∧
      ∀ fuel rest, ts.length ≤ fuel →
        separated Phrase.type? fuel (ts ++ next :: rest) = some (items, next :: rest) := by
  induction names generalizing ts with
  | nil => exact absurd rfl hne
  | cons name names ih =>
    obtain ⟨hname, hnames⟩ := List.forall_mem_cons.mp hnames
    have hbefore (t next : Token) (rest : List Token) : before (next :: rest) (t :: next :: rest) = [t] :=
      before_append [t] (next :: rest)
    cases names with
    | nil =>
      obtain ⟨t, _, ht, hnil, rfl⟩ := List.forall₂_cons_right_iff.mp
        (show List.Forall₂ Spells ts [.word name] by simpa [listed] using h)
      cases hnil
      refine ⟨[itemTree t], List.forall_mem_singleton.mpr (tidy_itemTree ht.uncommented), ?_,
        fun fuel rest hfuel => ?_⟩
      · have hnamed : (itemTree t).isNamed = true := rfl
        simp [hnamed, normalized_itemTree ht hname]
      · obtain ⟨fuel, rfl⟩ : ∃ n, fuel = n + 1 := ⟨fuel - 1, by simp at hfuel; omega⟩
        have htype : Phrase.type? (t :: next :: rest) = some (next :: rest) :=
          type?_item ht hname (isAnyOf_mono hnext (List.subset_append_left ..))
        have hcomma : next.is "," = false := isAnyOf_eq_false hnext (by decide)
        rw [List.cons_append, List.nil_append, separated, htype]
        simp [hcomma, hbefore]
        rfl
    | cons name' names =>
      obtain ⟨t, us, ht, hus, rfl⟩ := List.forall₂_cons_right_iff.mp
        (show List.Forall₂ Spells ts (.word name :: .mark "," ::
          listed ((name' :: names).map fun name => [.word name])) by simpa [listed] using h)
      obtain ⟨comma, vs, hcomma, hvs, rfl⟩ := List.forall₂_cons_right_iff.mp hus
      obtain ⟨items, hitems, htexts, hrest⟩ := ih hnames (List.cons_ne_nil _ _) hvs
      refine ⟨itemTree t :: .word comma :: items, ?_, ?_, fun fuel rest hfuel => ?_⟩
      · exact List.forall_mem_cons.mpr ⟨tidy_itemTree ht.uncommented,
          List.forall_mem_cons.mpr ⟨tidy_word hcomma.uncommented, hitems⟩⟩
      · have hnamed : (itemTree t).isNamed = true := rfl
        have hword : (Tree.word comma).isNamed = false := rfl
        simp [hnamed, hword, normalized_itemTree ht hname, htexts]
      · obtain ⟨fuel, rfl⟩ : ∃ n, fuel = n + 1 := ⟨fuel - 1, by simp at hfuel; omega⟩
        have hlength : vs.length ≤ fuel := by simp at hfuel; omega
        have htype : Phrase.type? (t :: comma :: (vs ++ next :: rest)) =
            some (comma :: (vs ++ next :: rest)) :=
          type?_item ht hname (hcomma.isAnyOf_of_notMem (by decide))
        have his : comma.is "," = true := hcomma.is_mark
        rw [List.cons_append, List.cons_append, separated, htype]
        simp [his, hbefore, hrest fuel rest hlength]
        rfl

end Names

/-! ## Clauses -/

/-- What is listed in one clause. -/
def listedIn (t : Tree) : List String :=
  (t.namedChildren.filter (·.kind == .typeList)).flatMap fun l => l.namedChildren.map normalized

/-- The node of a clause, if names are listed there. -/
inductive ShowsList (k : Kind) : List String → List Tree → Prop where
  | empty : ShowsList k [] []
  | clause {t : Tree} {names : List String} (tidy : Tidy t) (kind : t.kind = k) (part : t.part? = none)
      (listed : listedIn t = names) : ShowsList k names [t]

/-- The node of a superclass, if there is one. -/
inductive ShowsSuperclass : Option String → List Tree → Prop where
  | empty : ShowsSuperclass none []
  | clause {t : Tree} {name : String} (tidy : Tidy t) (kind : t.kind = .superclass)
      (part : t.part? = some .superclass) (first : t.namedChildren.head?.map normalized = some name) :
      ShowsSuperclass (some name) [t]

section Clauses

variable {ts rest : List Token} {next : Token} {names : List String} {word : String} {k : Kind}

/-- A clause starts with its word; without names there is nothing before what follows. -/
theorem first_clause (h : List.Forall₂ Spells ts (clauseLexemes (word, names))) (next : Token) :
    ∃ first, (∀ rest, ∃ more, ts ++ next :: rest = first :: more) ∧
      ∀ words, word ∉ words → next.isAnyOf words = false → first.isAnyOf words = false := by
  unfold clauseLexemes at h
  split at h
  · cases h
    exact ⟨next, fun rest => ⟨rest, rfl⟩, fun _ _ hnext => hnext⟩
  · obtain ⟨t, us, ht, -, rfl⟩ := List.forall₂_cons_right_iff.mp h
    exact ⟨t, fun rest => ⟨us ++ next :: rest, rfl⟩, fun _ hword _ => ht.isAnyOf_of_notMem hword⟩

theorem clause_none {t : Token} (h : t.is word = false)
    (build : Token → List Token → Option (Tree × List Token)) :
    Declaration.clause word build (t :: rest) = some ([], t :: rest) := by
  simp [Declaration.clause, h]

theorem listClause_reads (hk : k ≠ .error) (hnames : ∀ name ∈ names, IsName name)
    (h : List.Forall₂ Spells ts (clauseLexemes (word, names)))
    (hnext : next.isAnyOf (word :: itemMarks) = false) :
    ∃ nodes, ShowsList k names nodes ∧
      ∀ rest, listClause word k (ts ++ next :: rest) = some (nodes, next :: rest) := by
  unfold clauseLexemes at h
  split at h
  · rename_i hempty
    cases h
    cases List.isEmpty_iff.mp hempty
    exact ⟨[], .empty, fun rest => clause_none (isAnyOf_eq_false hnext List.mem_cons_self) _⟩
  · rename_i hempty
    obtain ⟨t, us, ht, hus, rfl⟩ := List.forall₂_cons_right_iff.mp h
    have hne : names ≠ [] := fun heq => hempty (List.isEmpty_iff.mpr heq)
    have hmarks : next.isAnyOf itemMarks = false := isAnyOf_mono hnext (List.subset_cons_self ..)
    obtain ⟨items, hitems, htexts, hread⟩ := separated_reads hnames hne hus hmarks
    let list : Tree := .node none .typeList items
    have hlist : Tidy list := tidy_node _ hitems (by decide)
    let node : Tree := .node none k [.word t, list]
    have hlisted : listedIn node = names := by
      have hchildren : node.namedChildren.filter (·.kind == .typeList) = [list] := rfl
      rw [listedIn, hchildren, List.flatMap_cons, List.flatMap_nil, List.append_nil, ← htexts]
      rfl
    have htidy : Tidy node := by
      refine tidy_node _ (List.forall_mem_cons.mpr ⟨?_, List.forall_mem_singleton.mpr hlist⟩) hk
      exact tidy_word ht.uncommented
    refine ⟨[node], .clause htidy rfl rfl hlisted, fun rest => ?_⟩
    have his : t.is word = true := by rw [ht.is_eq]; simp [Lexeme.is, Lexeme.word]
    have htypes : typeList (us ++ next :: rest) = some (list, next :: rest) := by
      have hmake : Tree.make .typeList items = list :=
        Tree.make_eq fun c hc => (hitems c (List.mem_of_mem_tail hc)).bare
      rw [typeList, hread _ rest (by simp), Option.map_some]
      simp only [hmake]
    have hnode : Tree.make k [.word t, list] = node :=
      Tree.make_eq (List.forall_mem_singleton.mpr hlist.bare)
    simp [listClause, Declaration.clause, his, htypes, hnode]

theorem superclassClause_reads (hnames : ∀ name ∈ names, IsName name) (hone : names.length ≤ 1)
    (h : List.Forall₂ Spells ts (clauseLexemes ("extends", names)))
    (hnext : next.isAnyOf ("extends" :: itemMarks) = false) :
    ∃ nodes, ShowsSuperclass names.head? nodes ∧
      ∀ rest, superclassClause (ts ++ next :: rest) = some (nodes, next :: rest) := by
  cases names with
  | nil =>
    cases h
    exact ⟨[], .empty, fun rest => clause_none (isAnyOf_eq_false hnext List.mem_cons_self) _⟩
  | cons name names =>
    obtain rfl : names = [] := List.eq_nil_of_length_eq_zero (by simpa using hone)
    have hname := hnames name List.mem_cons_self
    obtain ⟨t, us, ht, hus, rfl⟩ := List.forall₂_cons_right_iff.mp
      (show List.Forall₂ Spells ts [.word "extends", .word name] by
        simpa [clauseLexemes, listed] using h)
    obtain ⟨item, _, hitem, hnil, rfl⟩ := List.forall₂_cons_right_iff.mp hus
    cases hnil
    have hlist : Tidy (itemTree item) := tidy_itemTree hitem.uncommented
    let node : Tree := .node (some .superclass) .superclass [.word t, itemTree item]
    have hhead : node.namedChildren.head?.map normalized = some name :=
      congrArg some (normalized_itemTree hitem hname)
    have htidy : Tidy node := by
      refine tidy_node _ (List.forall_mem_cons.mpr ⟨?_, List.forall_mem_singleton.mpr hlist⟩) (by decide)
      exact tidy_word ht.uncommented
    refine ⟨[node], .clause htidy rfl rfl hhead, fun rest => ?_⟩
    have his : t.is "extends" = true := by rw [ht.is_eq]; rfl
    have hmarks : next.isAnyOf itemMarks = false := isAnyOf_mono hnext (List.subset_cons_self ..)
    have htype : Phrase.type? (item :: next :: rest) = some (next :: rest) :=
      type?_item hitem hname (isAnyOf_mono hmarks (List.subset_append_left ..))
    have hbefore : before (next :: rest) (item :: next :: rest) = [item] :=
      before_append [item] (next :: rest)
    have hmake : Tree.make .superclass [.word t, .flat .phrase [item]] =
        .node none .superclass [.word t, itemTree item] :=
      Tree.make_eq (List.forall_mem_singleton.mpr hlist.bare)
    simp [superclassClause, Declaration.clause, his, htype, hbefore, hmake]
    rfl

end Clauses

/-! ## The whole header -/

/-- The superclass that the header of a classifier names. -/
def namedSuperclass (c : Classifier) (relationships : List Relationship) : Option String :=
  if c.kind = .«class» then (supertypeNames c relationships [.inheritance]).head? else none

/-- The supertypes that the header of a classifier lists. -/
def namedInterfaces (c : Classifier) (relationships : List Relationship) : List String :=
  supertypeNames c relationships
    (if c.kind = .interface then [.inheritance, .implementation] else [.implementation])

/-- The kind of clause that lists supertypes. -/
def listKind (k : ClassifierKind) : Kind := if k == .interface then .extendsClause else .implementsClause

/-- Nodes between the name and the body of a type, from which supertypes are extracted. -/
structure ShowsSupertypes (k : ClassifierKind) (superclass : Option String) (interfaces : List String)
    (nodes : List Tree) : Prop where
  tidy : ∀ t ∈ nodes, Tidy t
  parts : ∀ t ∈ nodes, t.part? ≠ some .body
  superclass : k = .«class» → (nodes.find? (·.part? == some .superclass)).bind
    (fun t => t.namedChildren.head?.map normalized) = superclass
  interfaces : ((nodes.find? (·.kind == listKind k)).map listedIn).getD [] = interfaces

section Supertypes

variable {kind : ClassifierKind} {superclass : Option String} {interfaces : List String} {part : Option Part}
  {k : Kind} {front nodes : List Tree} {body : Tree}

/-- Between other nodes, the nodes of a header are the only ones of their sort. -/
theorem find?_between {p : Tree → Bool} (hfront : ∀ t ∈ front, p t = false) (hbody : p body = false) :
    (front ++ (nodes ++ [body])).find? p = nodes.find? p := by
  have hnone : front.find? p = none := List.find?_eq_none.mpr fun t ht => by simp [hfront t ht]
  have hlast : [body].find? p = none := by simp [hbody]
  rw [List.find?_append, List.find?_append, hnone, hlast, Option.none_or, Option.or_none]

/-- The superclass is extracted from a class, and none from anything else. -/
theorem ShowsSupertypes.superclass?_eq {c : Classifier} {relationships : List Relationship}
    (h : ShowsSupertypes c.kind (namedSuperclass c relationships) interfaces nodes)
    (hfront : ∀ t ∈ front, t.part? ≠ some .superclass) (hbody : body.part? ≠ some .superclass) :
    (if c.kind == .«class» then Extract.superclass? (.node part k (front ++ (nodes ++ [body])))
      else none) = namedSuperclass c relationships := by
  by_cases hclass : c.kind = .«class»
  · rw [← h.superclass hclass, hclass, Extract.superclass?, Tree.child?, Tree.children,
      find?_between (fun t ht => by simpa using hfront t ht) (by simpa using hbody), Option.map_bind]
    rfl
  · rw [namedSuperclass, if_neg hclass, beq_eq_false_iff_ne.mpr hclass, if_neg Bool.false_ne_true]

theorem ShowsSupertypes.listed_eq (h : ShowsSupertypes kind superclass interfaces nodes)
    (hfront : ∀ t ∈ front, t.kind ≠ listKind kind) (hbody : body.kind ≠ listKind kind) :
    Extract.listed (.node part k (front ++ (nodes ++ [body]))) (listKind kind) = interfaces := by
  rw [← h.interfaces, Extract.listed, Tree.childOfKind?, Tree.children,
    find?_between (fun t ht => by simpa using hfront t ht) (by simpa using hbody)]
  cases nodes.find? (·.kind == listKind kind) <;> rfl

theorem ShowsSupertypes.child?_body (h : ShowsSupertypes kind superclass interfaces nodes)
    (hfront : ∀ t ∈ front, t.part? ≠ some .body) (hbody : body.part? = some .body) :
    (Tree.node part k (front ++ (nodes ++ [body]))).child? .body = some body := by
  have hnone : (front ++ nodes).find? (·.part? == some .body) = none := by
    rw [List.find?_eq_none]
    intro t ht
    simpa using (List.mem_append.mp ht).elim (hfront t) (h.parts t)
  rw [Tree.child?, Tree.children, ← List.append_assoc, List.find?_append, hnone]
  simp [hbody]

end Supertypes

/-- The kind of node that a type becomes. -/
def declaredAs : ClassifierKind → Kind
  | .«class» => .classDeclaration
  | .interface => .interfaceDeclaration
  | .enumeration => .enumDeclaration

section Headers

variable {ts rest : List Token} {named opening : Token} {names : List String} {nodes nodes' : List Tree}

theorem step_eq {reader : List Token → Option (List Tree × List Token)} {parts parts' : List Tree}
    (h : reader ts = some (parts', rest)) :
    (Header.mk parts ts true).step reader = ⟨parts ++ parts', rest, true⟩ := by
  simp [Header.step, h]

/-- The nodes of an interface or an enumeration. -/
theorem ShowsList.supertypes {k : ClassifierKind} (hk : k ≠ .«class») (h : ShowsList (listKind k) names nodes) :
    ShowsSupertypes k none names nodes := by
  cases h with
  | empty => exact ⟨by simp, by simp, fun heq => absurd heq hk, rfl⟩
  | clause tidy kind part listed =>
    exact ⟨by simpa using tidy, by simp [part], fun heq => absurd heq hk, by simp [kind, listed]⟩

/-- The nodes of a class. -/
theorem ShowsSuperclass.supertypes {superclass : Option String} (h : ShowsSuperclass superclass nodes)
    (h' : ShowsList .implementsClause names nodes') :
    ShowsSupertypes .«class» superclass names (nodes ++ nodes') := by
  have hlist : listKind .«class» = .implementsClause := rfl
  cases h with
  | empty =>
    cases h' with
    | empty => exact ⟨by simp, by simp, fun _ => rfl, rfl⟩
    | clause tidy kind part listed =>
      exact ⟨by simpa using tidy, by simp [part], fun _ => by simp [part],
        by simp [kind, listed, hlist]⟩
  | clause tidy kind part first =>
    cases h' with
    | empty =>
      exact ⟨by simpa using tidy, by simp [part], fun _ => by simp [part, first], by simp [kind, hlist]⟩
    | clause tidy' kind' part' listed =>
      exact ⟨by simpa using ⟨tidy, tidy'⟩, by simp [part, part'], fun _ => by simp [part, first],
        by simp [kind, kind', hlist, listed]⟩

theorem step_name (hnamed : named.kind = .word) :
    (Header.mk [] (named :: rest) true).step nameOf = ⟨[nameTree named], rest, true⟩ :=
  step_eq (by simp [nameOf, hnamed, nameTree])

/-- Neither a clause nor what follows it is mistaken for type parameters. -/
theorem typeParameterClause_none {next : Token}
    (h : List.Forall₂ Spells ts (clauseLexemes ("extends", names))) (hnext : next.isAnyOf ["<"] = false)
    (rest : List Token) :
    typeParameterClause (ts ++ next :: rest) = some ([], ts ++ next :: rest) := by
  obtain ⟨first, hmore, hfirst⟩ := first_clause h next
  obtain ⟨more, heq⟩ := hmore rest
  have hangle : starts "<" (ts ++ next :: rest) = false := by
    rw [heq]
    exact isAnyOf_eq_false (hfirst ["<"] (by decide) hnext) List.mem_cons_self
  rw [typeParameterClause, hangle]
  rfl

theorem permits_none (hopening : Spells opening (.mark "\x7b")) :
    listClause "permits" .other (opening :: rest) = some ([], opening :: rest) :=
  clause_none (hopening.is_of_ne (by decide)) _

theorem bodyStart_eq (hopening : Spells opening (.mark "\x7b")) :
    bodyStart (opening :: rest) = some ([], opening :: rest) := by
  have his : opening.is "\x7b" = true := hopening.is_mark
  simp [bodyStart, starts, his]

/-- The header of a classifier is read up to the opening brace, with its supertypes. -/
theorem header_reads {c : Classifier} {relationships : List Relationship}
    (htargets : RegularTargets c relationships) (hnamed : named.kind = .word)
    (h : List.Forall₂ Spells ts ((headerClauses c relationships).flatMap clauseLexemes))
    (hopening : Spells opening (.mark "\x7b")) :
    ∃ nodes, ShowsSupertypes c.kind (namedSuperclass c relationships) (namedInterfaces c relationships)
        nodes ∧
      ∀ rest, Declaration.header (declaredAs c.kind) (named :: (ts ++ opening :: rest)) =
        ⟨nameTree named :: nodes, opening :: rest, true⟩ := by
  have hnames (kinds : List RelationshipKind) :
      ∀ name ∈ supertypeNames c relationships kinds, IsName name := isName_supertypeNames htargets
  have hextends : opening.isAnyOf ("extends" :: itemMarks) = false := hopening.isAnyOf_of_notMem (by decide)
  have himplements : opening.isAnyOf ("implements" :: itemMarks) = false :=
    hopening.isAnyOf_of_notMem (by decide)
  have hangle : opening.isAnyOf ["<"] = false := hopening.isAnyOf_of_notMem (by decide)
  unfold headerClauses at h
  unfold namedSuperclass namedInterfaces
  cases hkind : c.kind with
  | interface =>
    rw [hkind, List.flatMap_singleton] at h
    obtain ⟨nodes, hnodes, hread⟩ := listClause_reads (k := .extendsClause) (by decide) (hnames _) h
      hextends
    refine ⟨nodes, hnodes.supertypes (by decide), fun rest => ?_⟩
    unfold Declaration.header
    simp only [declaredAs, List.foldl_cons, List.foldl_nil, step_name hnamed,
      step_eq (typeParameterClause_none h hangle rest), step_eq (hread rest),
      step_eq (permits_none hopening), step_eq (bodyStart_eq hopening), List.append_nil]
    rfl
  | enumeration =>
    rw [hkind, List.flatMap_singleton] at h
    obtain ⟨nodes, hnodes, hread⟩ := listClause_reads (k := .implementsClause) (by decide) (hnames _) h
      himplements
    refine ⟨nodes, hnodes.supertypes (by decide), fun rest => ?_⟩
    unfold Declaration.header
    simp only [declaredAs, List.foldl_cons, List.foldl_nil, step_name hnamed, step_eq (hread rest),
      step_eq (bodyStart_eq hopening), List.append_nil]
    rfl
  | «class» =>
    rw [hkind, List.flatMap_cons, List.flatMap_singleton] at h
    obtain ⟨us, vs, rfl, hus, hvs⟩ := forall₂_append h
    obtain ⟨lists, hlists, hlistRead⟩ := listClause_reads (k := .implementsClause) (by decide) (hnames _)
      hvs himplements
    -- Behind the superclass stands the list of interfaces, if there is one, or the opening brace.
    obtain ⟨first, hmore, hfirst⟩ := first_clause hvs opening
    obtain ⟨nodes, hnodes, hread⟩ := superclassClause_reads
      (fun name hname => hnames _ name (List.mem_of_mem_take hname)) (List.length_take_le 1 _) hus
      (hfirst _ (by decide) hextends)
    refine ⟨nodes ++ lists, ?_, fun rest => ?_⟩
    · have hsupertypes := hnodes.supertypes hlists
      rwa [List.head?_take, if_neg Nat.one_ne_zero] at hsupertypes
    · obtain ⟨more, heq⟩ := hmore rest
      have hparameters := typeParameterClause_none hus (hfirst ["<"] (by decide) hangle) more
      unfold Declaration.header
      simp only [declaredAs, List.foldl_cons, List.foldl_nil, step_name hnamed, List.append_assoc, heq,
        step_eq hparameters, step_eq (hread more), List.append_nil]
      simp only [← heq, step_eq (hlistRead rest), step_eq (permits_none hopening),
        step_eq (bodyStart_eq hopening), List.append_nil, List.append_assoc]
      rfl

end Headers

end ClassAtlas.Java
