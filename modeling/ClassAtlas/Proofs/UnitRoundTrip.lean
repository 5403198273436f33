import ClassAtlas.Proofs.HeaderClauses

/-! # Units and their records

The tokens of a unit are read as a tree with one declaration in it, and its record shows the classifier
that the unit was generated from. -/

namespace ClassAtlas.Java

open Lexer (freed)
open Phrase (starts startsAny)
open Extract

/-! ## Bodies -/

/-- The nodes of a body, with those behind the constants of an enumeration in their place. -/
def spelledOut (parts : List Tree) : List Tree :=
  parts.flatMap fun c => if c.kind == .enumMembers then c.children else [c]

/-- Nodes that show the members of a classifier and declare no types. -/
structure Contents (c : Classifier) (nodes : List Tree) : Prop where
  fields : memberFields c.kind nodes = c.fields.map (fieldIn c.kind)
  operations : memberOperations c.kind c.name nodes = c.operations.map (operationIn c.kind)
  literals : memberLiterals nodes = if c.kind = .enumeration then c.literals else []
  types : ∀ namespaceName, nodes.flatMap (recordsOf namespaceName) = []

section Bodies

open Declaration

variable {c : Classifier} {ts : List Token} {t close : Token} {nodes nodes' : List Tree}

theorem recordsOf_eq_nil {tree : Tree} {namespaceName : String} (h : typeKind? tree.kind = none) :
    recordsOf namespaceName tree = [] := by
  rw [recordsOf_eq, h]

theorem Contents.commented (h : Contents c nodes) (hnodes : Commented nodes nodes') :
    Contents c nodes' where
  fields := by rw [hnodes.memberFields, h.fields]
  operations := by rw [hnodes.memberOperations, h.operations]
  literals := by rw [hnodes.memberLiterals, h.literals]
  types := fun namespaceName => by
    rw [← h.types namespaceName]
    exact hnodes.flatMap_eq (fun _ h => h.recordsOf) fun hkind => recordsOf_eq_nil (by rw [hkind]; rfl)

/-- Members are read one after another. -/
theorem members_reads {α : Type} {lexemes : α → List Lexeme} {shows : α → Tree → Prop} {xs : List α}
    (hread : ∀ x ∈ xs, ∀ {ts}, List.Forall₂ Spells ts (lexemes x) →
      (∃ t us, ts = t :: us ∧ t.is "\x7d" = false) ∧
      ∃ tree, shows x tree ∧ ∀ fuel rest, member (fuel + 1) (ts ++ rest) = .read tree rest)
    (h : List.Forall₂ Spells ts (xs.map lexemes).flatten) :
    ∃ trees, List.Forall₂ shows xs trees ∧ xs.length ≤ ts.length ∧ ∀ fuel done rest,
      members (fuel + 1 + xs.length) done (ts ++ rest) =
        members (fuel + 1) (trees.reverse ++ done) rest := by
  induction xs generalizing ts with
  | nil =>
    cases h
    exact ⟨[], .nil, Nat.le_refl _, fun _ _ _ => rfl⟩
  | cons x xs ih =>
    obtain ⟨hx, hxs⟩ := List.forall_mem_cons.mp hread
    obtain ⟨us, vs, rfl, hus, hvs⟩ := forall₂_append h
    obtain ⟨⟨t, us, rfl, ht⟩, tree, hshows, hmember⟩ := hx hus
    obtain ⟨trees, htrees, hlength, hrest⟩ := ih hxs hvs
    refine ⟨tree :: trees, .cons hshows htrees, ?_, fun fuel done rest => ?_⟩
    · simp only [List.length_cons, List.length_append]
      omega
    · have hread := hmember (fuel + xs.length) (vs ++ rest)
      have hfuel : fuel + 1 + (x :: xs).length = fuel + xs.length + 1 + 1 := by
        rw [List.length_cons]
        omega
      rw [List.cons_append] at hread
      rw [hfuel, List.append_assoc, List.cons_append, members, ht, if_neg Bool.false_ne_true, hread]
      have hnext := hrest fuel (tree :: done) rest
      rw [show fuel + 1 + xs.length = fuel + xs.length + 1 by omega] at hnext
      simp only [hnext, List.reverse_cons, List.append_assoc, List.cons_append, List.nil_append]

theorem members_close (h : close.is "\x7d" = true) (fuel : Nat) (done : List Tree) (rest : List Token) :
    members (fuel + 1) done (close :: rest) = .closed (done.reverse ++ [.word close]) rest := by
  rw [members, h, if_pos rfl, List.reverse_cons]

theorem kind_of_shows {α : Type} {k : Kind} {shows : α → Tree → Prop} {xs : List α}
    (h : List.Forall₂ (fun x tree => tree.kind = k ∧ shows x tree) xs nodes) :
    ∀ tree ∈ nodes, tree.kind = k := by
  induction h with
  | nil => exact List.forall_mem_nil _
  | cons hhead _ ih => exact List.forall_mem_cons.mpr ⟨hhead.1, ih⟩

theorem memberFields_eq {owner : ClassifierKind} {fs : List Field}
    (h : List.Forall₂ (fun f tree => tree.kind = .fieldDeclaration ∧
      fields owner tree = [fieldIn owner f]) fs nodes) :
    memberFields owner nodes = fs.map (fieldIn owner) := by
  induction h with
  | nil => rfl
  | cons hhead _ ih =>
    obtain ⟨hkind, hfields⟩ := hhead
    have hcons : ∀ tree rest, memberFields owner (tree :: rest) =
        (if tree.kind == .fieldDeclaration then fields owner tree else []) ++ memberFields owner rest :=
      fun _ _ => List.flatMap_cons
    rw [hcons, ih, hkind, hfields]
    rfl

theorem memberOperations_eq {owner : ClassifierKind} {name : String} {ops : List Operation}
    (hnames : ∀ op ∈ ops, op.name ≠ name)
    (h : List.Forall₂ (fun op tree => tree.kind = .methodDeclaration ∧
      operation? owner tree = some (operationIn owner op)) ops nodes) :
    memberOperations owner name nodes = ops.map (operationIn owner) := by
  have hfound : nodes.filterMap (fun m =>
      if m.kind == .methodDeclaration then operation? owner m else none) = ops.map (operationIn owner) := by
    clear hnames
    induction h with
    | nil => rfl
    | cons hhead _ ih =>
      obtain ⟨hkind, hoperation⟩ := hhead
      simpa [hkind, hoperation] using ih
  rw [memberOperations, hfound, List.filter_eq_self]
  intro op' hop'
  obtain ⟨op, hop, rfl⟩ := List.mem_map.mp hop'
  simpa [operationIn] using hnames op hop

theorem memberFields_eq_nil {owner : ClassifierKind}
    (h : ∀ tree ∈ nodes, tree.kind ≠ .fieldDeclaration) : memberFields owner nodes = [] := by
  rw [memberFields, List.flatMap_eq_nil_iff]
  intro tree htree
  rw [beq_eq_false_iff_ne.mpr (h tree htree)]
  rfl

theorem memberOperations_eq_nil {owner : ClassifierKind} {name : String}
    (h : ∀ tree ∈ nodes, tree.kind ≠ .methodDeclaration) : memberOperations owner name nodes = [] := by
  have hfound : nodes.filterMap (fun m =>
      if m.kind == .methodDeclaration then operation? owner m else none) = [] := by
    rw [List.filterMap_eq_nil_iff]
    intro tree htree
    rw [beq_eq_false_iff_ne.mpr (h tree htree)]
    rfl
  rw [memberOperations, hfound]
  rfl

theorem memberLiterals_eq_nil (h : ∀ tree ∈ nodes, tree.kind ≠ .enumConstant) :
    memberLiterals nodes = [] := by
  rw [memberLiterals, List.filterMap_eq_nil_iff]
  intro tree htree
  rw [beq_eq_false_iff_ne.mpr (h tree htree)]
  rfl

/-- Fields and operations, nothing else. -/
def IsMember (tree : Tree) : Prop := tree.kind = .fieldDeclaration ∨ tree.kind = .methodDeclaration

/-- Nodes that show the fields and operations of a classifier. -/
structure ShowsMembers (c : Classifier) (nodes : List Tree) : Prop where
  fields : memberFields c.kind nodes = c.fields.map (fieldIn c.kind)
  operations : memberOperations c.kind c.name nodes = c.operations.map (operationIn c.kind)
  members : ∀ tree ∈ nodes, IsMember tree

/-- The members of a classifier are read up to the closing brace. -/
theorem members_classifier (hc : Regular c)
    (h : List.Forall₂ Spells ts (memberLexemes c).flatten) (hclose : close.is "\x7d" = true) :
    ∃ trees, ShowsMembers c trees ∧ ∀ fuel rest, ts.length < fuel →
      members fuel [] (ts ++ close :: rest) = .closed (trees ++ [.word close]) rest := by
  rw [memberLexemes, List.flatten_append] at h
  obtain ⟨us, vs, rfl, hus, hvs⟩ := forall₂_append h
  obtain ⟨fts, hfts, hlength, hfields⟩ := members_reads
    (fun f hf {_} h => field_reads (hc.fields f hf) h c.kind) hus
  obtain ⟨ots, hots, hlength', hoperations⟩ := members_reads
    (fun op hop {_} h => operation_reads (hc.operations op hop).1 c.kind h) hvs
  have hfieldKinds := kind_of_shows hfts
  have hoperationKinds := kind_of_shows hots
  refine ⟨fts ++ ots, ⟨?_, ?_, ?_⟩, fun fuel rest hfuel => ?_⟩
  · have hnone : memberFields c.kind ots = [] := memberFields_eq_nil fun tree htree => by
      simp [hoperationKinds tree htree]
    have happend : memberFields c.kind (fts ++ ots) =
        memberFields c.kind fts ++ memberFields c.kind ots := List.flatMap_append
    rw [happend, hnone, memberFields_eq hfts, List.append_nil]
  · have hnone : memberOperations c.kind c.name fts = [] := memberOperations_eq_nil fun tree htree => by
      simp [hfieldKinds tree htree]
    have happend : memberOperations c.kind c.name (fts ++ ots) =
        memberOperations c.kind c.name fts ++ memberOperations c.kind c.name ots := by
      simp only [memberOperations, List.filterMap_append, List.filter_append]
    rw [happend, hnone, memberOperations_eq (fun op hop => (hc.operations op hop).2) hots,
      List.nil_append]
  · refine List.forall_mem_append.mpr ⟨fun tree htree => .inl (hfieldKinds tree htree), fun tree htree => ?_⟩
    exact .inr (hoperationKinds tree htree)
  · obtain ⟨n, rfl⟩ : ∃ n, fuel = n + 1 + c.operations.length + c.fields.length := by
      refine ⟨fuel - 1 - c.operations.length - c.fields.length, ?_⟩
      rw [List.length_append] at hfuel
      omega
    have hfirst := hfields (n + c.operations.length) [] (vs ++ close :: rest)
    rw [show n + c.operations.length + 1 = n + 1 + c.operations.length by omega] at hfirst
    rw [List.append_assoc, hfirst, hoperations, members_close hclose]
    simp

/-! ### Constants -/

/-- A constant before a mark is read as a tree with its name. -/
theorem constants_word {literal mark : String} {next : Token} (h : Spells t (.word literal))
    (hliteral : IsName literal) (hnext : Spells next (.mark mark)) (hmark : mark ∈ [",", ";", "\x7d"])
    (fuel : Nat) (done : List Tree) (rest : List Token) :
    constants (fuel + 1) done (t :: next :: rest) =
      constants fuel (.node none .enumConstant [nameTree t] :: done) (next :: rest) := by
  have hmarks : next.isAnyOf ["-", "(", "\x7b"] = false := by
    refine hnext.isAnyOf_of_notMem ?_
    clear hnext
    revert mark
    decide
  have hunsealed : isUnsealed (t :: next :: rest) = false := by
    have hminus : next.is "-" = false := isAnyOf_eq_false hmarks (by decide)
    unfold isUnsealed
    split
    · rename_i heq
      cases heq
      simp [hminus]
    · rfl
  have hmods : modifiers (t :: next :: rest) = ([], t :: next :: rest) :=
    modifiers_none (endsModifiers_cons (h.isAnyOf_of_notMem (hliteral.notMem (by decide))) hunsealed)
  have hend : constantEnd (next :: rest) = some ([], next :: rest) := by
    have hopen : next.is "(" = false := isAnyOf_eq_false hmarks (by decide)
    have hbrace : next.is "\x7b" = false := isAnyOf_eq_false hmarks (by decide)
    simp [constantEnd, starts, hopen, hbrace]
  have hfits : startsAny [",", ";", "\x7d"] (next :: rest) = true :=
    hnext.isAnyOf_of_mem (.inr rfl) hmark
  have hkind : t.kind = .word := h.kind
  rw [constants, hmods]
  simp only [hkind, hend, hfits, beq_self_eq_true, Bool.or_true, Bool.true_or, if_true,
    List.nil_append, List.append_nil]
  rfl

theorem constants_comma (h : Spells t (.mark ",")) (fuel : Nat) (done : List Tree) (rest : List Token) :
    constants (fuel + 1) done (t :: rest) = constants fuel (.word t :: done) rest := by
  have hmods : modifiers (t :: rest) = ([], t :: rest) :=
    modifiers_none (endsModifiers_of_notMem h (by decide))
  have hkind : (t.kind == .word) = false := by rw [h.kind]; rfl
  have hclose : t.is "\x7d" = false := h.is_of_ne (by decide)
  have hsemicolon : t.is ";" = false := h.is_of_ne (by decide)
  have his : t.is "," = true := h.is_mark
  rw [constants, hmods]
  simp [hkind, hclose, hsemicolon, his]

/-- Nodes of constants, apart from what is between them. -/
structure ShowsConstants (literals : List String) (nodes : List Tree) : Prop where
  literals : memberLiterals nodes = literals
  kinds : ∀ tree ∈ nodes, tree.kind = .enumConstant ∨ tree.kind = .word

/-- Constants are read one after another up to the mark behind the last. -/
theorem constants_reads {literals : List String} {mark : String} {next : Token}
    (hliterals : ∀ literal ∈ literals, IsName literal)
    (h : List.Forall₂ Spells ts (listed (literals.map fun literal => [.word literal])))
    (hnext : Spells next (.mark mark)) (hmark : mark ∈ [",", ";", "\x7d"]) :
    ∃ parts, ShowsConstants literals parts ∧ ∀ fuel done rest,
      constants (fuel + ts.length) done (ts ++ next :: rest) =
        constants fuel (parts.reverse ++ done) (next :: rest) := by
  induction literals generalizing ts with
  | nil =>
    cases h
    exact ⟨[], ⟨rfl, List.forall_mem_nil _⟩, fun _ _ _ => rfl⟩
  | cons literal literals ih =>
    obtain ⟨hliteral, hliterals⟩ := List.forall_mem_cons.mp hliterals
    have hshows {t : Token} {parts : List Tree} (ht : Spells t (.word literal))
        (hparts : memberLiterals parts = literals) :
        memberLiterals (.node none .enumConstant [nameTree t] :: parts) = literal :: literals := by
      have hname : partText? (.node none .enumConstant [nameTree t]) .name = some literal :=
        partText?_name rfl ht hliteral
      have hkind : (Tree.node none .enumConstant [nameTree t]).kind = .enumConstant := rfl
      rw [memberLiterals] at hparts ⊢
      simp [hkind, hname, ← hparts]
    cases literals with
    | nil =>
      obtain ⟨t, _, ht, hnil, rfl⟩ := List.forall₂_cons_right_iff.mp
        (show List.Forall₂ Spells ts [.word literal] by simpa [listed] using h)
      cases hnil
      refine ⟨[.node none .enumConstant [nameTree t]], ⟨hshows ht rfl, ?_⟩, fun fuel done rest => ?_⟩
      · exact List.forall_mem_singleton.mpr (.inl rfl)
      · exact constants_word ht hliteral hnext hmark fuel done rest
    | cons literal' literals =>
      obtain ⟨t, us, ht, hus, rfl⟩ := List.forall₂_cons_right_iff.mp
        (show List.Forall₂ Spells ts (.word literal :: .mark "," ::
          listed ((literal' :: literals).map fun literal => [.word literal])) by simpa [listed] using h)
      obtain ⟨comma, vs, hcomma, hvs, rfl⟩ := List.forall₂_cons_right_iff.mp hus
      obtain ⟨parts, hparts, hrest⟩ := ih hliterals hvs
      refine ⟨.node none .enumConstant [nameTree t] :: .word comma :: parts, ⟨hshows ht ?_, ?_⟩,
        fun fuel done rest => ?_⟩
      · exact hparts.literals
      · exact List.forall_mem_cons.mpr ⟨.inl rfl, List.forall_mem_cons.mpr ⟨.inr rfl, hparts.kinds⟩⟩
      · have hfuel : fuel + (t :: comma :: vs).length = fuel + vs.length + 1 + 1 := by
          simp only [List.length_cons]
          omega
        rw [hfuel, List.cons_append, List.cons_append,
          constants_word ht hliteral hcomma (by decide), constants_comma hcomma, hrest]
        simp

/-! ### Both -/

theorem ShowsConstants.append {literals literals' : List String} (h : ShowsConstants literals nodes)
    (h' : ShowsConstants literals' nodes') : ShowsConstants (literals ++ literals') (nodes ++ nodes') where
  literals := by
    rw [← h.literals, ← h'.literals]
    exact List.filterMap_append
  kinds := List.forall_mem_append.mpr ⟨h.kinds, h'.kinds⟩

/-- Words and marks show no constants. -/
theorem showsConstants_word (t : Token) : ShowsConstants [] [.word t] :=
  ⟨rfl, List.forall_mem_singleton.mpr (.inr rfl)⟩

/-- A node of constants is no member and no type. -/
theorem ShowsConstants.idle {literals : List String} (h : ShowsConstants literals nodes) (k : Kind)
    (hk : k ≠ .enumConstant ∧ k ≠ .word) : ∀ tree ∈ nodes, tree.kind ≠ k := by
  intro tree htree hkind
  rcases h.kinds tree htree with heq | heq
  · exact hk.1 (hkind.symm.trans heq)
  · exact hk.2 (hkind.symm.trans heq)

theorem spelledOut_eq (h : ∀ tree ∈ nodes, tree.kind ≠ .enumMembers) : spelledOut nodes = nodes := by
  induction nodes with
  | nil => rfl
  | cons tree nodes ih =>
    obtain ⟨htree, hnodes⟩ := List.forall_mem_cons.mp h
    have hcons : spelledOut (tree :: nodes) =
        (if tree.kind == .enumMembers then tree.children else [tree]) ++ spelledOut nodes :=
      List.flatMap_cons
    rw [hcons, ih hnodes, beq_eq_false_iff_ne.mpr htree]
    rfl

theorem ShowsMembers.idle (h : ShowsMembers c nodes) (k : Kind)
    (hk : k ≠ .fieldDeclaration ∧ k ≠ .methodDeclaration) : ∀ tree ∈ nodes, tree.kind ≠ k := by
  intro tree htree hkind
  rcases h.members tree htree with heq | heq
  · exact hk.1 (hkind.symm.trans heq)
  · exact hk.2 (hkind.symm.trans heq)

/-- Constants, members and what stands behind them. -/
theorem contents_of {front members back : List Tree}
    (hfront : ShowsConstants (if c.kind = .enumeration then c.literals else []) front)
    (hmembers : ShowsMembers c members) (hback : ShowsConstants [] back) :
    Contents c (front ++ members ++ back) where
  fields := by
    have happend : memberFields c.kind (front ++ members ++ back) =
        memberFields c.kind front ++ memberFields c.kind members ++ memberFields c.kind back := by
      simp only [memberFields, List.flatMap_append]
    rw [happend, memberFields_eq_nil (hfront.idle _ (by decide)), hmembers.fields,
      memberFields_eq_nil (hback.idle _ (by decide)), List.nil_append, List.append_nil]
  operations := by
    have happend : memberOperations c.kind c.name (front ++ members ++ back) =
        memberOperations c.kind c.name front ++ memberOperations c.kind c.name members ++
          memberOperations c.kind c.name back := by
      simp only [memberOperations, List.filterMap_append, List.filter_append]
    rw [happend, memberOperations_eq_nil (hfront.idle _ (by decide)), hmembers.operations,
      memberOperations_eq_nil (hback.idle _ (by decide)), List.nil_append, List.append_nil]
  literals := by
    have happend : memberLiterals (front ++ members ++ back) =
        memberLiterals front ++ memberLiterals members ++ memberLiterals back := by
      simp only [memberLiterals, List.filterMap_append]
    rw [happend, hfront.literals, memberLiterals_eq_nil (hmembers.idle _ (by decide)), hback.literals,
      List.append_nil, List.append_nil]
  types := fun namespaceName => by
    rw [List.flatMap_eq_nil_iff]
    intro tree htree
    refine recordsOf_eq_nil ?_
    rcases List.mem_append.mp htree with htree | htree
    · rcases List.mem_append.mp htree with htree | htree
      · rcases hfront.kinds tree htree with hkind | hkind <;> rw [hkind] <;> rfl
      · rcases hmembers.members tree htree with hkind | hkind <;> rw [hkind] <;> rfl
    · rcases hback.kinds tree htree with hkind | hkind <;> rw [hkind] <;> rfl

/-- Words and marks show nothing. -/
theorem Contents.word (h : Contents c nodes) (t : Token) : Contents c (.word t :: nodes) where
  fields := h.fields
  operations := h.operations
  literals := h.literals
  types := fun namespaceName => by
    rw [List.flatMap_cons, recordsOf_eq_nil rfl, h.types, List.nil_append]

theorem constants_close (h : Spells t (.mark "\x7d")) (fuel : Nat) (done : List Tree) (rest : List Token) :
    constants (fuel + 1) done (t :: rest) = .closed (done.reverse ++ [.word t]) rest := by
  have hmods : modifiers (t :: rest) = ([], t :: rest) :=
    modifiers_none (endsModifiers_of_notMem h (by decide))
  have hkind : (t.kind == .word) = false := by rw [h.kind]; rfl
  have his : t.is "\x7d" = true := h.is_mark
  rw [constants, hmods]
  simp [hkind, his]

theorem constants_semicolon (h : Spells t (.mark ";")) (fuel : Nat) (done : List Tree)
    (rest : List Token) : constants (fuel + 1) done (t :: rest) = .members done.reverse t rest := by
  have hmods : modifiers (t :: rest) = ([], t :: rest) :=
    modifiers_none (endsModifiers_of_notMem h (by decide))
  have hkind : (t.kind == .word) = false := by rw [h.kind]; rfl
  have hclose : t.is "\x7d" = false := h.is_of_ne (by decide)
  have his : t.is ";" = true := h.is_mark
  rw [constants, hmods]
  simp [hkind, hclose, his]

/-- The body of an enumeration is read up to its closing brace. -/
theorem body_enumeration (hc : Regular c) (hkind : c.kind = .enumeration)
    (h : List.Forall₂ Spells ts (constantLexemes c ++ (memberLexemes c).flatten))
    (hclose : Spells close (.mark "\x7d")) :
    ∃ parts, Contents c (spelledOut parts) ∧ ∀ fuel rest, ts.length + 1 < fuel →
      body fuel .enumDeclaration (ts ++ close :: rest) = .closed parts rest := by
  have hfront {parts : List Tree} (h : ShowsConstants c.literals parts) :
      ShowsConstants (if c.kind = .enumeration then c.literals else []) parts := by
    rw [if_pos hkind]
    exact h
  rw [constantLexemes, if_pos hkind, List.append_assoc] at h
  obtain ⟨us, vs, rfl, hus, hvs⟩ := forall₂_append h
  cases hmembers : hasMembers c with
  | false =>
    obtain ⟨hfields, hoperations⟩ : c.fields = [] ∧ c.operations = [] := by
      simpa [hasMembers] using hmembers
    have hnone : vs = [] := by
      rw [hmembers, memberLexemes, hfields, hoperations] at hvs
      exact List.forall₂_nil_right_iff.mp hvs
    subst hnone
    obtain ⟨parts, hparts, hread⟩ := constants_reads (hc.literals hkind) hus hclose (by decide)
    have hnomembers : ShowsMembers c [] :=
      ⟨by rw [hfields]; rfl, by rw [hoperations]; rfl, List.forall_mem_nil _⟩
    have hcontents := contents_of (hfront hparts) hnomembers (showsConstants_word close)
    refine ⟨parts ++ [.word close], ?_, fun fuel rest hfuel => ?_⟩
    · rw [spelledOut_eq ((hparts.append (showsConstants_word close)).idle _ (by decide))]
      simpa using hcontents
    · obtain ⟨fuel, rfl⟩ : ∃ n, fuel = n + 1 := ⟨fuel - 1, by omega⟩
      have hlength : (us ++ close :: rest).length + 1 = rest.length + 1 + 1 + us.length := by
        simp only [List.length_append, List.length_cons]
        omega
      rw [List.append_nil, body, beq_self_eq_true, if_pos rfl, hlength, hread, constants_close hclose]
      simp
  | true =>
    rw [hmembers, if_pos rfl] at hvs
    obtain ⟨semicolon, ws, hsemicolon, hws, rfl⟩ := List.forall₂_cons_right_iff.mp hvs
    obtain ⟨parts, hparts, hread⟩ := constants_reads (hc.literals hkind) hus hsemicolon (by decide)
    obtain ⟨trees, htrees, hmembersRead⟩ := members_classifier hc hws hclose.is_mark
    let inner : Tree := .make .enumMembers (.word semicolon :: trees)
    have hshown := hfront (by simpa using hparts.append (showsConstants_word semicolon))
    refine ⟨parts ++ [inner, .word close], ?_, fun fuel rest hfuel => ?_⟩
    · refine (contents_of hshown htrees (showsConstants_word close)).commented ?_
      have happend : spelledOut (parts ++ [inner, .word close]) =
          spelledOut parts ++ (Tree.spread (.word semicolon :: trees) ++ [.word close]) := by
        rw [spelledOut, List.flatMap_append]
        rfl
      rw [happend, spelledOut_eq (hparts.idle _ (by decide)), List.append_assoc, List.append_assoc]
      refine (Commented.refl parts).append ?_
      exact (Commented.spread (.word semicolon :: trees)).append (.refl [.word close])
    · obtain ⟨fuel, rfl⟩ : ∃ n, fuel = n + 1 := ⟨fuel - 1, by omega⟩
      have hlength : (us ++ semicolon :: (ws ++ close :: rest)).length + 1 =
          ws.length + rest.length + 2 + 1 + us.length := by
        simp only [List.length_append, List.length_cons]
        omega
      have hclosed := hmembersRead fuel rest (by
        simp only [List.length_append, List.length_cons] at hfuel
        omega)
      rw [List.append_assoc, List.cons_append, body, beq_self_eq_true, if_pos rfl, hlength, hread,
        constants_semicolon hsemicolon]
      simp only [hclosed]
      simp [inner]

/-- The body of a unit's type is read up to its closing brace. -/
theorem body_reads (hc : Regular c)
    (h : List.Forall₂ Spells ts (constantLexemes c ++ (memberLexemes c).flatten))
    (hclose : Spells close (.mark "\x7d")) :
    ∃ parts, Contents c (spelledOut parts) ∧ ∀ fuel rest, ts.length + 1 < fuel →
      body fuel (declaredAs c.kind) (ts ++ close :: rest) = .closed parts rest := by
  by_cases hkind : c.kind = .enumeration
  · rw [hkind]
    exact body_enumeration hc hkind h hclose
  · rw [constantLexemes, if_neg hkind, List.nil_append] at h
    have hother : (declaredAs c.kind == .enumDeclaration) = false := by
      cases hcases : c.kind with
      | enumeration => exact absurd hcases hkind
      | _ => rfl
    obtain ⟨trees, htrees, hread⟩ := members_classifier hc h hclose.is_mark
    have hnone : ShowsConstants (if c.kind = .enumeration then c.literals else []) [] := by
      rw [if_neg hkind]
      exact ⟨rfl, List.forall_mem_nil _⟩
    refine ⟨trees ++ [.word close], ?_, fun fuel rest hfuel => ?_⟩
    · have hcontents := contents_of hnone htrees (showsConstants_word close)
      rw [spelledOut_eq]
      · exact hcontents
      · exact List.forall_mem_append.mpr ⟨htrees.idle _ (by decide), by simp [Tree.kind, Tree.word]⟩
    · obtain ⟨fuel, rfl⟩ : ∃ n, fuel = n + 1 := ⟨fuel - 1, by omega⟩
      rw [body, hother, if_neg Bool.false_ne_true]
      exact hread fuel rest (by omega)

end Bodies

/-! ## Types -/

/-- The modifiers of a unit's type. -/
def typeModifiers (c : Classifier) : List String :=
  if c.kind = .«class» ∧ c.isAbstract then ["public", "abstract"] else ["public"]

/-- The keyword of a unit's type. -/
def typeWord : ClassifierKind → String
  | .interface => "interface"
  | .enumeration => "enum"
  | .«class» => "class"

theorem headerWords_eq (c : Classifier) : headerWords c = typeModifiers c ++ [typeWord c.kind] := by
  unfold headerWords typeModifiers
  cases c.kind <;> cases c.isAbstract <;> rfl

section Types

open Declaration

variable {c : Classifier} {ts mods rest : List Token} {keyword named opening close : Token}

/-- The node of a type with modifiers, a keyword, a name, supertypes and a body. -/
def typeNode (k : Kind) (mods : List Token) (keyword named opening : Token) (supers parts : List Tree) :
    Tree :=
  .make k (modifierTrees mods ++ .word keyword :: nameTree named ::
    (supers ++ [(Tree.make .typeBody (.word opening :: parts)).as .body]))

theorem typeDeclaration_eq {inner us : List Token} {supers parts : List Tree} {fuel : Nat}
    (hheader : Declaration.header (declarationKind keyword) us =
      ⟨nameTree named :: supers, opening :: inner, true⟩)
    (hbody : body fuel (declarationKind keyword) inner = .closed parts rest) :
    typeDeclaration (fuel + 1) (modifierTrees mods) (keyword :: us) =
      .read (typeNode (declarationKind keyword) mods keyword named opening supers parts) rest := by
  rw [typeDeclaration, hheader]
  simp only [if_true, List.drop_one, List.tail_cons, hbody]
  simp [typeNode]

/-- The record of a classifier's unit. -/
def recordIn (c : Classifier) (namespaceName : String) (line : Nat) : TypeRecord :=
  { name := c.name, namespaceName, kind := c.kind
    isAbstract := c.kind == .«class» && c.isAbstract
    fields := c.fields.map (fieldIn c.kind)
    operations := c.operations.map (operationIn c.kind)
    literals := if c.kind = .enumeration then c.literals else []
    startLine := line }

/-- The record of a classifier's unit within its diagram. -/
def recordOf (c : Classifier) (relationships : List Relationship) (namespaceName : String) (line : Nat) :
    TypeRecord :=
  { recordIn c namespaceName line with
    superclass := namedSuperclass c relationships
    interfaces := namedInterfaces c relationships }

theorem typeNode_eq {k : Kind} {supers parts : List Tree} {m : Token} (hmods : Bare mods)
    (hkeyword : keyword.comments = []) (hnamed : named.comments = []) (hopening : opening.comments = [])
    (hsupers : ∀ t ∈ supers, Tidy t) :
    typeNode k (m :: mods) keyword named opening supers parts =
      .node none k (.node none .modifiers ((m :: mods).map .word) :: .word keyword :: nameTree named ::
        (supers ++ [.node (some .body) .typeBody (Tree.spread (.word opening :: parts))])) := by
  have hbody : (Tree.node (some .body) .typeBody (Tree.spread (.word opening :: parts))).takeComments =
      ([], .node (some .body) .typeBody (Tree.spread (.word opening :: parts))) := by
    obtain ⟨kind, comments, gap, text, line⟩ := opening
    cases hopening
    rfl
  have hwords : modifierTrees (m :: mods) = [.node none .modifiers ((m :: mods).map .word)] :=
    modifierTrees_eq hmods
  rw [typeNode, hwords]
  refine Tree.make_eq_of_takeComments ?_
  refine List.forall_mem_cons.mpr ⟨?_, List.forall_mem_cons.mpr ⟨?_, List.forall_mem_append.mpr
    ⟨fun t ht => ?_, List.forall_mem_singleton.mpr hbody⟩⟩⟩
  · exact Tree.takeComments_bare _ (tidy_word hkeyword).bare
  · exact Tree.takeComments_bare _ (bare_singleton hnamed)
  · exact Tree.takeComments_bare _ (hsupers t ht).bare

theorem abstract_typeModifiers (c : Classifier) :
    (c.kind == .«class» && (typeModifiers c).contains "abstract") =
      (c.kind == .«class» && c.isAbstract) := by
  unfold typeModifiers
  cases c.kind <;> cases c.isAbstract <;> rfl

/-- Nothing is wrong before the body. -/
theorem headerHasError_eq {k : Kind} {words : List Token} {supers cs : List Tree}
    (hsupers : ∀ t ∈ supers, Tidy t) :
    headerHasError (.node none k ([.node none .modifiers (words.map .word), .word keyword,
      nameTree named] ++ (supers ++ [.node (some .body) .typeBody cs]))) = false := by
  have hmodifiers : Tree.hasError (.node none .modifiers (words.map .word)) = false := by
    rw [Tree.hasError, Tree.anyError_map_word]
    rfl
  have hsuper : supers.any (fun t => t.kind != .typeBody && t.kind != .block && t.hasError) = false := by
    rw [List.any_eq_false]
    exact fun t ht => by simp [(hsupers t ht).sound]
  simp only [headerHasError, Tree.children, List.any_cons, List.any_append, List.any_nil, hmodifiers,
    hsuper]
  rfl

/-- A type with the members of a classifier in its body has the record of the classifier. -/
theorem recordsOf_typeNode (hc : IsName c.name) {relationships : List Relationship}
    {supers parts : List Tree} {m : Token} (hmods : Bare mods)
    (hwords : List.Forall₂ (fun t w => Spells t ⟨.word, w, .any⟩) (m :: mods) (typeModifiers c))
    (hkeyword : keyword.comments = []) (hnamed : Spells named (.word c.name))
    (hopening : opening.comments = [])
    (hsupers : ShowsSupertypes c.kind (namedSuperclass c relationships)
      (namedInterfaces c relationships) supers)
    (hparts : Contents c (spelledOut parts)) (namespaceName : String) :
    ∃ line, recordsOf namespaceName
        (typeNode (declaredAs c.kind) (m :: mods) keyword named opening supers parts) =
      [recordOf c relationships namespaceName line] := by
  rw [typeNode_eq hmods hkeyword hnamed.uncommented hopening hsupers.tidy]
  let front : List Tree :=
    [.node none .modifiers ((m :: mods).map .word), .word keyword, nameTree named]
  let body : Tree := .node (some .body) .typeBody (Tree.spread (.word opening :: parts))
  let tree : Tree := .node none (declaredAs c.kind) (front ++ (supers ++ [body]))
  have hfront {p : Part} (hp : p ≠ .name) : ∀ t ∈ front, t.part? ≠ some p := by
    have hnone (t : Tree) (ht : t.part? = none) : t.part? ≠ some p := by simp [ht]
    have hlast : (nameTree named).part? ≠ some p := by simpa [nameTree] using hp.symm
    exact List.forall_mem_cons.mpr ⟨hnone _ rfl, List.forall_mem_cons.mpr
      ⟨hnone _ rfl, List.forall_mem_singleton.mpr hlast⟩⟩
  have hkind : typeKind? tree.kind = some c.kind := by
    show typeKind? (declaredAs c.kind) = _
    cases c.kind <;> rfl
  have hname : partText? tree .name = some c.name := partText?_name rfl hnamed hc
  have hsound : headerHasError tree = false := headerHasError_eq hsupers.tidy
  have hchild : tree.child? .body = some body :=
    hsupers.child?_body (hfront (by decide)) rfl
  have hcontents : Contents c (bodyNodes tree) := by
    have hopened : Contents c (spelledOut (.word opening :: parts)) := hparts.word opening
    rw [bodyNodes, hchild]
    exact hopened.commented (Commented.spread (.word opening :: parts)).members
  have hmodifiers : Extract.modifierWords tree = typeModifiers c := modifierTexts hwords
  have hrecord : record c.kind c.name namespaceName tree =
      recordOf c relationships namespaceName tree.line := by
    have hsuperclass : (if c.kind == .«class» then superclass? tree else none) =
        namedSuperclass c relationships :=
      hsupers.superclass?_eq (hfront (by decide)) (by simp [body, Tree.part?])
    have hlisted : Extract.listed tree
        (if c.kind == .interface then .extendsClause else .implementsClause) =
          namedInterfaces c relationships := by
      refine hsupers.listed_eq ?_ ?_
      · unfold listKind
        split <;> simp [front, Tree.kind, Tree.word, nameTree, Tree.ident, Tree.as]
      · unfold listKind
        split <;> simp [body, Tree.kind]
    have hfields := hcontents.fields
    have hoperations := hcontents.operations
    have hliterals := hcontents.literals
    unfold bodyNodes at hfields hoperations hliterals
    simp only [Extract.record, hmodifiers, hsuperclass, hlisted, hfields, hoperations, hliterals,
      abstract_typeModifiers, recordOf, recordIn]
  refine ⟨tree.line, ?_⟩
  have hrecords : recordsOf namespaceName tree = [recordOf c relationships namespaceName tree.line] := by
    rw [recordsOf_eq, hkind, hname]
    simp only [hsound, Bool.false_eq_true, if_false, hrecord, hcontents.types]
  exact hrecords

end Types

/-! ## Units -/

section Units

open Declaration

variable {c : Classifier} {ts rest : List Token} {segments : List String} {ls : List Lexeme}

/-- The tokens of a name with points are passed over up to the last. -/
theorem eatName_dotted {s : String} {lead : Lead} {next : Token}
    (h : List.Forall₂ Spells ts (⟨.word, s, lead⟩ ::
      segments.flatMap fun r => [.suffix ".", ⟨.word, r, .nothing⟩]))
    (hnext : next.is "." = false) : Phrase.eatName (ts ++ next :: rest) = some (next :: rest) := by
  induction segments generalizing ts s lead with
  | nil =>
    obtain ⟨t, _, ht, hnil, rfl⟩ := List.forall₂_cons_right_iff.mp h
    cases hnil
    have hkind : (t.kind != .word) = false := by rw [ht.kind]; rfl
    rw [List.cons_append, List.nil_append, Phrase.eatName]
    simp [hkind, hnext]
  | cons r segments ih =>
    obtain ⟨t, us, ht, hus, rfl⟩ := List.forall₂_cons_right_iff.mp h
    obtain ⟨dot, vs, hdot, hvs, rfl⟩ := List.forall₂_cons_right_iff.mp
      (show List.Forall₂ Spells us (.suffix "." :: ⟨.word, r, .nothing⟩ ::
        segments.flatMap fun r => [.suffix ".", ⟨.word, r, .nothing⟩]) from hus)
    have hmore := ih hvs
    obtain ⟨u, ws, hu, hws, rfl⟩ := List.forall₂_cons_right_iff.mp hvs
    have hkind : (t.kind != .word) = false := by rw [ht.kind]; rfl
    have hword : (u.kind == .word) = true := by rw [hu.kind]; rfl
    have his : dot.is "." = true := hdot.is_mark
    rw [List.cons_append, List.cons_append, Phrase.eatName]
    simpa [hkind, hword, his] using hmore

/-- The characters of a name with points, none of them a blank. -/
theorem text_dotted {s : String} {lead : Lead} {k : Kind} (hs : IsName s)
    (hsegments : ∀ s ∈ segments, IsName s)
    (h : List.Forall₂ Spells ts (⟨.word, s, lead⟩ ::
      segments.flatMap fun r => [.suffix ".", ⟨.word, r, .nothing⟩])) :
    String.ofList ((Tree.node none k (ts.map .word)).text.filter (· != ' ')) =
      ".".intercalate (s :: segments) := by
  obtain ⟨t, us, ht, hus, rfl⟩ := List.forall₂_cons_right_iff.mp h
  have hleaves : (Tree.node none k ((t :: us).map .word)).leaves = t :: us := Tree.leavesOf_map_word _
  have hrest : us.flatMap Token.full = segments.flatMap ('.' :: ·.toList) := by
    rw [flatMap_full hus]
    · rw [List.flatMap_assoc]
      simp [Lexeme.suffix]
    · intro l hl
      obtain ⟨r, -, hl⟩ := List.mem_flatMap.mp hl
      simp only [List.mem_cons, List.not_mem_nil, or_false] at hl
      rcases hl with rfl | rfl <;> rfl
  have hblank {w : String} (hw : IsName w) : ∀ c ∈ w.toList, (c != ' ') = true := fun c hc =>
    bne_iff_ne.mpr (Lexer.ne_of_isNamePart (Lexer.isNamePart_of_mem hw.1 c hc) (by decide))
  have htext : (Tree.node none k ((t :: us).map .word)).text =
      (".".intercalate (s :: segments)).toList := by
    rw [Tree.text, hleaves, toList_dotted, ← hrest, ← ht.text]
  rw [htext, List.filter_eq_self.mpr, String.ofList_toList]
  rw [toList_dotted]
  refine List.forall_mem_append.mpr ⟨hblank hs, fun c hc => ?_⟩
  obtain ⟨r, hr, hc⟩ := List.mem_flatMap.mp hc
  rcases List.mem_cons.mp hc with rfl | hc
  · decide
  · exact hblank (hsegments r hr) c hc

/-- A package line is read as a tree that gives the name. -/
theorem package_reads {s : String} (hs : IsName s) (hsegments : ∀ s ∈ segments, IsName s)
    (h : List.Forall₂ Spells ts (packageLexemes (s :: segments))) :
    ∃ tree, tree.kind = .package ∧
      (∀ rest, Declaration.package? (ts ++ rest) = some (tree, rest)) ∧
      ∀ parts, (∀ part ∈ parts, part.kind ≠ .package) →
        packageName (.node none .program (tree :: parts)) = ".".intercalate (s :: segments) := by
  have hlexemes : packageLexemes (s :: segments) = .word "package" ::
      ((.word s :: segments.flatMap fun r => [.suffix ".", ⟨.word, r, .nothing⟩]) ++ [.mark ";"]) := rfl
  rw [hlexemes] at h
  obtain ⟨keyword, us, hkeyword, hus, rfl⟩ := List.forall₂_cons_right_iff.mp h
  obtain ⟨ds, vs, rfl, hds, hvs⟩ := forall₂_append hus
  obtain ⟨semicolon, _, hsemicolon, hnil, rfl⟩ := List.forall₂_cons_right_iff.mp hvs
  cases hnil
  have hbare : Bare ds := by
    refine bare_of_spells hds (List.forall_mem_cons.mpr ⟨by simp, fun l hl => ?_⟩)
    obtain ⟨r, -, hl⟩ := List.mem_flatMap.mp hl
    simp only [List.mem_cons, List.not_mem_nil, or_false] at hl
    rcases hl with rfl | rfl <;> simp
  let name : Tree := .node none .identifier (ds.map .word)
  let tree : Tree := .node none .package [.word keyword, name, .word semicolon]
  refine ⟨tree, rfl, fun rest => ?_, fun parts hparts => ?_⟩
  · have hat : starts "@" (keyword :: (ds ++ semicolon :: rest)) = false :=
      hkeyword.is_of_ne (by decide)
    have hafter : Phrase.afterAnnotations (keyword :: (ds ++ semicolon :: rest)) =
        keyword :: (ds ++ semicolon :: rest) := Phrase.annotations_eq hat
    have his : keyword.is "package" = true := by rw [hkeyword.is_eq]; rfl
    have hname : Phrase.eatName (ds ++ semicolon :: rest) = some (semicolon :: rest) :=
      eatName_dotted hds (hsemicolon.is_of_ne (by decide))
    have hend : starts ";" (semicolon :: rest) = true := by
      rw [starts, hsemicolon.is_eq]
      rfl
    have hbefore : before (ds ++ semicolon :: rest) (keyword :: (ds ++ semicolon :: rest)) = [keyword] :=
      before_append [keyword] _
    have hflat : Tree.flat .identifier ds = name := Tree.flat_eq fun t ht => hbare t (List.mem_of_mem_tail ht)
    have htree : Tree.make .package [.word keyword, name, .word semicolon] = tree := by
      refine Tree.make_eq (List.forall_mem_cons.mpr ⟨?_, List.forall_mem_singleton.mpr ?_⟩)
      · have hleaves : name.leaves = ds := Tree.leavesOf_map_word ds
        rwa [hleaves]
      · exact (tidy_word hsemicolon.uncommented).bare
    simp only [List.cons_append, List.append_assoc, List.nil_append]
    simp [Declaration.package?, hafter, Phrase.eat, his, hname, hend, hbefore, before_append, hflat,
      ← htree]
  · have hnone : parts.filter (·.kind == .package) = [] := by
      rw [List.filter_eq_nil_iff]
      intro part hpart
      simpa using hparts part hpart
    have hfound : tree.namedChildren.find? (·.kind == .identifier) = some name := rfl
    have hpackages : (tree :: parts).filter (·.kind == .package) = [tree] := by
      have hkind : tree.kind = .package := rfl
      simp [hkind, hnone]
    rw [packageName, Tree.children, hpackages, List.filterMap_cons, hfound]
    exact text_dotted hs hsegments hds

theorem package?_none {t : Token} (hat : t.is "@" = false) (hpackage : t.is "package" = false) :
    Declaration.package? (t :: rest) = none := by
  have hafter : Phrase.afterAnnotations (t :: rest) = t :: rest := Phrase.annotations_eq hat
  simp [Declaration.package?, hafter, Phrase.eat, hpackage]

/-- The tokens of a type are read as a tree with the record of the classifier. -/
theorem type_reads (hc : Regular c) {relationships : List Relationship}
    (htargets : RegularTargets c relationships)
    (h : List.Forall₂ Spells ts (freed (headerLexemes c relationships) ++
      (constantLexemes c ++ (memberLexemes c).flatten ++ [.mark "\x7d"]))) :
    ∃ tree, typeKind? tree.kind = some c.kind ∧
      (∀ namespaceName, ∃ line,
        recordsOf namespaceName tree = [recordOf c relationships namespaceName line]) ∧
      ∀ fuel, ts.length < fuel → unitParts fuel ts = [tree] := by
  obtain ⟨more, hmore⟩ : ∃ more, typeModifiers c = "public" :: more := by
    unfold typeModifiers
    split <;> exact ⟨_, rfl⟩
  have hwords : ∀ w ∈ typeModifiers c, w ∈ Declaration.modifierWords := by
    unfold typeModifiers
    split <;> decide
  have hlexemes : freed (headerLexemes c relationships) = ⟨.word, "public", .any⟩ ::
      (more.map .word ++ .word (typeWord c.kind) :: .word c.name ::
        ((headerClauses c relationships).flatMap clauseLexemes ++ [.mark "\x7b"])) := by
    rw [headerLexemes, headerWords_eq, hmore]
    simp [freed, Lexeme.word]
  simp only [hlexemes, List.cons_append, List.append_assoc, List.nil_append] at h
  obtain ⟨m, us, hm, hus, rfl⟩ := List.forall₂_cons_right_iff.mp h
  obtain ⟨mods, vs, rfl, hmods, hvs⟩ := forall₂_append hus
  obtain ⟨keyword, ws, hkeyword, hws, rfl⟩ := List.forall₂_cons_right_iff.mp hvs
  obtain ⟨named, xs, hnamed, hxs, rfl⟩ := List.forall₂_cons_right_iff.mp hws
  obtain ⟨clauses, ys, rfl, hclauses, hys⟩ := forall₂_append hxs
  obtain ⟨opening, zs, hopening, hzs, rfl⟩ := List.forall₂_cons_right_iff.mp hys
  rw [← List.append_assoc] at hzs
  obtain ⟨inner, ends, rfl, hinner, hends⟩ := forall₂_append hzs
  obtain ⟨close, _, hclose, hnil, rfl⟩ := List.forall₂_cons_right_iff.mp hends
  cases hnil
  obtain ⟨hspelled, hbare⟩ := spells_words hmods
  have hmodifiers : List.Forall₂ (fun t w => Spells t ⟨.word, w, .any⟩) (m :: mods) (typeModifiers c) := by
    rw [hmore]
    exact .cons hm hspelled
  have hkind : declarationKind keyword = declaredAs c.kind := by
    unfold declarationKind
    rw [hkeyword.is_eq, hkeyword.is_eq]
    cases c.kind <;> rfl
  obtain ⟨supers, hsupers, hheader⟩ := header_reads htargets hnamed.kind hclauses hopening
  obtain ⟨parts, hparts, hbody⟩ := body_reads hc hinner hclose
  refine ⟨typeNode (declaredAs c.kind) (m :: mods) keyword named opening supers parts, ?_,
    fun namespaceName => ?_, fun fuel hfuel => ?_⟩
  · show typeKind? (declaredAs c.kind) = _
    cases c.kind <;> rfl
  · exact recordsOf_typeNode hc.name hbare hmodifiers hkeyword.uncommented hnamed
      hopening.uncommented hsupers hparts namespaceName
  · obtain ⟨fuel, rfl⟩ : ∃ n, fuel = n + 1 := ⟨fuel - 1, by omega⟩
    let behind := named :: (clauses ++ opening :: (inner ++ [close]))
    have hpackage : Declaration.package? (m :: (mods ++ keyword :: behind)) = none :=
      package?_none (hm.is_of_ne (by decide)) (hm.is_of_ne (by decide))
    have hends : EndsModifiers (keyword :: behind) := by
      refine endsModifiers_of_notMem hkeyword ?_
      show typeWord c.kind ∉ _
      cases c.kind <;> decide
    have hmods : modifiers (m :: (mods ++ keyword :: behind)) =
        (modifierTrees (m :: mods), keyword :: behind) :=
      modifiers_words (isModifier_of_spells hmodifiers hwords) hends
    have htype : startsAny Declaration.typeWords (keyword :: behind) = true := by
      refine hkeyword.isAnyOf_of_mem (.inl rfl) ?_
      show typeWord c.kind ∈ _
      cases c.kind <;> decide
    have hread : typeDeclaration (8 * (keyword :: behind).length + 8) (modifierTrees (m :: mods))
        (keyword :: behind) =
        .read (typeNode (declaredAs c.kind) (m :: mods) keyword named opening supers parts) [] := by
      have hheader := hheader (inner ++ [close])
      rw [← hkind] at hbody hheader ⊢
      refine typeDeclaration_eq hheader (hbody _ [] ?_)
      simp only [behind, List.length_cons, List.length_append, List.length_nil]
      omega
    have hrest : unitParts fuel [] = [] := by cases fuel <;> rfl
    show unitParts (fuel + 1) (m :: (mods ++ keyword :: behind)) = _
    rw [unitParts, hpackage, hmods]
    simp only [htype, if_true, hread, hrest]

/-! ### The whole text -/

theorem collect_type {tree : Tree} {k : ClassifierKind} (h : typeKind? tree.kind = some k)
    (namespaceName : String) : collect namespaceName tree = recordsOf namespaceName tree := by
  have hkind : (tree.kind == .error) = false := by
    rw [beq_eq_false_iff_ne]
    intro heq
    rw [heq] at h
    cases h
  rw [collect_eq, hkind, if_neg Bool.false_ne_true]

theorem kind_ne_package {tree : Tree} {k : ClassifierKind} (h : typeKind? tree.kind = some k) :
    tree.kind ≠ .package := by
  intro heq
  rw [heq] at h
  cases h

/-- Parts of a unit before its type: they have no records, and are read one after another. -/
structure Leads (ts : List Token) (parts : List Tree) : Prop where
  silent : ∀ namespaceName, parts.flatMap (collect namespaceName) = []
  short : parts.length ≤ ts.length
  read : ∀ fuel rest, unitParts (fuel + parts.length) (ts ++ rest) = parts ++ unitParts fuel rest

theorem leads_nil : Leads [] [] := ⟨fun _ => rfl, Nat.le_refl _, fun _ _ => rfl⟩

theorem Leads.append {us vs : List Token} {parts parts' : List Tree} (h : Leads us parts)
    (h' : Leads vs parts') : Leads (us ++ vs) (parts ++ parts') where
  silent := fun namespaceName => by
    rw [List.flatMap_append, h.silent, h'.silent, List.append_nil]
  short := by
    rw [List.length_append, List.length_append]
    exact Nat.add_le_add h.short h'.short
  read := fun fuel rest => by
    rw [List.length_append, Nat.add_comm parts.length, ← Nat.add_assoc, List.append_assoc, h.read, h'.read,
      List.append_assoc]

theorem leads_package (hsegments : ∀ s ∈ segments, IsName s)
    (h : List.Forall₂ Spells ts (packageLexemes segments)) :
    ∃ parts, Leads ts parts ∧ ∀ others, (∀ part ∈ others, part.kind ≠ .package) →
      packageName (.node none .program (parts ++ others)) = ".".intercalate segments := by
  cases segments with
  | nil =>
    cases h
    refine ⟨[], leads_nil, fun others hothers => ?_⟩
    have hnone : others.filter (·.kind == .package) = [] := by simpa [List.filter_eq_nil_iff] using hothers
    rw [List.nil_append, packageName, Tree.children, hnone]
    rfl
  | cons s segments =>
    obtain ⟨hs, hsegments⟩ := List.forall_mem_cons.mp hsegments
    obtain ⟨package, hkind, hread, hname⟩ := package_reads hs hsegments h
    obtain ⟨t, us, -, -, rfl⟩ := List.forall₂_cons_right_iff.mp
      (show List.Forall₂ Spells ts (.word "package" :: _) from h)
    refine ⟨[package], ⟨fun namespaceName => ?_, by simp, fun fuel rest => ?_⟩, hname⟩
    · have hnone : collect namespaceName package = [] := by
        rw [collect_eq, hkind, recordsOf_eq_nil (by rw [hkind]; rfl)]
        rfl
      simp [hnone]
    · have hnext := hread rest
      rw [List.cons_append] at hnext ⊢
      rw [List.length_singleton, unitParts, hnext]
      rfl

/-- Where a statement may end. -/
def statementEnds : List String :=
  [";", "\x7b"] ++ (Declaration.modifierWords ++ Declaration.typeWords ++ ["@"])

/-- A statement ends at the first semicolon if it does not end before. -/
theorem afterStatement_eq {semicolon : Token} (hsemicolon : semicolon.is ";" = true)
    (h : ∀ t ∈ ts, t.isAnyOf statementEnds = false) (hidden afterPoint : Bool) :
    afterStatement hidden afterPoint (ts ++ semicolon :: rest) = rest := by
  induction ts generalizing afterPoint with
  | nil => rw [List.nil_append, afterStatement, hsemicolon, if_pos rfl]
  | cons t ts ih =>
    obtain ⟨ht, hts⟩ := List.forall_mem_cons.mp h
    have hstart : startsAny (Declaration.modifierWords ++ Declaration.typeWords ++ ["@"])
        (t :: (ts ++ semicolon :: rest)) = false :=
      isAnyOf_mono ht (List.subset_append_right ..)
    have hend : t.is ";" = false := isAnyOf_eq_false ht (by decide)
    have hblock : t.is "\x7b" = false := isAnyOf_eq_false ht (by decide)
    rw [List.cons_append, afterStatement, hend, hblock, hstart]
    simpa using ih hts (t.is ".")

/-- What starts no declaration is passed over up to the end of a statement. -/
theorem unitParts_passed {t : Token} {l : Lexeme} (ht : Spells t l)
    (hl : l.text ∉ "non" :: "@" :: "sealed" :: "package" :: "record" ::
      (Declaration.modifierWords ++ Declaration.typeWords)) (fuel : Nat) :
    unitParts (fuel + 1) (t :: ts) =
      errorOf (before (statement (t :: ts)) (t :: ts)) ++ unitParts fuel (statement (t :: ts)) := by
  have hnone := ht.isAnyOf_of_notMem hl
  have hat : t.is "@" = false := isAnyOf_eq_false hnone (by decide)
  have hpackage : Declaration.package? (t :: ts) = none :=
    package?_none hat (isAnyOf_eq_false hnone (by decide))
  have hmods : modifiers (t :: ts) = ([], t :: ts) :=
    modifiers_none (endsModifiers_of_notMem ht fun hmem => hl (by
      simp only [List.mem_cons, List.mem_append] at hmem ⊢
      tauto))
  have htype : startsAny Declaration.typeWords (t :: ts) = false := ht.isAnyOf_of_notMem fun hmem => hl (by
    simp only [List.mem_cons, List.mem_append]
    tauto)
  have hannotation : isAnnotationType (t :: ts) = false := isAnnotationType_cons hat
  have hrecord : isRecord (t :: ts) = false := isRecord_cons (isAnyOf_eq_false hnone (by decide))
  rw [unitParts, hpackage, hmods]
  simp only [htype, hannotation, hrecord, Bool.or_self, Bool.false_eq_true, if_false]

/-- An import is passed over. -/
theorem leads_import (hne : segments ≠ []) (hsegments : ∀ s ∈ segments, IsName s)
    (h : List.Forall₂ Spells ts (importLexemes segments)) :
    ∃ part, part.kind ≠ .package ∧ Leads ts [part] := by
  obtain ⟨s, segments, rfl⟩ := List.exists_cons_of_ne_nil hne
  have hlexemes : ∀ l ∈ dottedLexemes (s :: segments), l.lead ≠ .any ∧
      l.text ∉ statementEnds := by
    have hname {r : String} (hr : IsName r) : r ∉ statementEnds := hr.notMem (by decide)
    obtain ⟨hs, hsegments⟩ := List.forall_mem_cons.mp hsegments
    refine List.forall_mem_cons.mpr ⟨⟨by simp, hname hs⟩, fun l hl => ?_⟩
    obtain ⟨r, hr, hl⟩ := List.mem_flatMap.mp hl
    simp only [List.mem_cons, List.not_mem_nil, or_false] at hl
    rcases hl with rfl | rfl
    · decide
    · exact ⟨by simp, hname (hsegments r hr)⟩
  obtain ⟨keyword, us, hkeyword, hus, rfl⟩ := List.forall₂_cons_right_iff.mp
    (show List.Forall₂ Spells ts (.word "import" :: (dottedLexemes (s :: segments) ++ [.mark ";"])) from h)
  obtain ⟨ds, vs, rfl, hds, hvs⟩ := forall₂_append hus
  obtain ⟨semicolon, _, hsemicolon, hnil, rfl⟩ := List.forall₂_cons_right_iff.mp hvs
  cases hnil
  have hbare : Bare (ds ++ [semicolon]) := List.forall_mem_append.mpr
    ⟨bare_of_spells hds fun l hl => (hlexemes l hl).1, bare_singleton hsemicolon.uncommented⟩
  let tokens := keyword :: (ds ++ [semicolon])
  have hflat : Tree.flat .error tokens = .node none .error (tokens.map .word) := Tree.flat_eq hbare
  have herror : errorOf tokens = [.node none .error (tokens.map .word)] := by
    rw [errorOf, hflat]
    rfl
  refine ⟨.node none .error (tokens.map .word), by simp [Tree.kind], fun namespaceName => ?_, by simp,
    fun fuel rest => ?_⟩
  · have hsilent : (tokens.map Tree.word).flatMap (collect namespaceName) = [] := by
      rw [List.flatMap_eq_nil_iff]
      intro c hc
      obtain ⟨t, -, rfl⟩ := List.mem_map.mp hc
      rw [collect_eq, recordsOf_eq_nil rfl]
      rfl
    rw [List.flatMap_singleton, collect_eq, ← hsilent]
    rfl
  · have hall : keyword :: (ds ++ [semicolon]) ++ rest = keyword :: (ds ++ semicolon :: rest) := by simp
    have hstatement : statement (keyword :: (ds ++ semicolon :: rest)) = rest := by
      have hmarks : keyword.isAnyOf [";", "\x7b", "\x7d"] = false := hkeyword.isAnyOf_of_notMem (by decide)
      have hend : keyword.is ";" = false := isAnyOf_eq_false hmarks (by decide)
      have hblock : keyword.is "\x7b" = false := isAnyOf_eq_false hmarks (by decide)
      have hclose : keyword.is "\x7d" = false := isAnyOf_eq_false hmarks (by decide)
      rw [statement, hend, hblock, hclose]
      exact afterStatement_eq hsemicolon.is_mark
        (isAnyOf_of_spells hds fun l hl => (hlexemes l hl).2) _ _
    have hbefore : before rest (keyword :: (ds ++ semicolon :: rest)) = tokens := by
      rw [← hall, before_append]
    rw [hall, List.length_singleton, unitParts_passed hkeyword (by decide), hstatement, hbefore, herror]

theorem leads_imports {imported : List (List String)}
    (himported : ∀ segments ∈ imported, segments ≠ [] ∧ ∀ s ∈ segments, IsName s)
    (h : List.Forall₂ Spells ts (imported.flatMap importLexemes)) :
    ∃ parts, (∀ part ∈ parts, part.kind ≠ .package) ∧ Leads ts parts := by
  induction imported generalizing ts with
  | nil =>
    cases h
    exact ⟨[], List.forall_mem_nil _, leads_nil⟩
  | cons segments imported ih =>
    obtain ⟨⟨hne, hsegments⟩, himported⟩ := List.forall_mem_cons.mp himported
    rw [List.flatMap_cons] at h
    obtain ⟨us, vs, rfl, hus, hvs⟩ := forall₂_append h
    obtain ⟨part, hkind, hpart⟩ := leads_import hne hsegments hus
    obtain ⟨parts, hkinds, hparts⟩ := ih himported hvs
    exact ⟨part :: parts, List.forall_mem_cons.mpr ⟨hkind, hkinds⟩, hpart.append hparts⟩

/-- The tokens of a unit have the record of its classifier. -/
theorem ofTree_unit (hc : Regular c) (hsegments : ∀ s ∈ segments, IsName s)
    {relationships : List Relationship} (htargets : RegularTargets c relationships)
    {imported : List (List String)}
    (himported : ∀ segments ∈ imported, segments ≠ [] ∧ ∀ s ∈ segments, IsName s)
    (h : List.Forall₂ Spells ts (unitLexemes segments imported c relationships)) :
    ∃ line, ofTree (unit ts) "" = [recordOf c relationships (".".intercalate segments) line] := by
  have hlexemes : unitLexemes segments imported c relationships = packageLexemes segments ++
      (imported.flatMap importLexemes ++ (freed (headerLexemes c relationships) ++
        (constantLexemes c ++ (memberLexemes c).flatten ++ [.mark "\x7d"]))) := by
    simp only [unitLexemes, List.append_assoc]
  rw [hlexemes] at h
  obtain ⟨us, vs, rfl, hus, hvs⟩ := forall₂_append h
  obtain ⟨is, ws, rfl, his, hws⟩ := forall₂_append hvs
  obtain ⟨front, hfront, hname⟩ := leads_package hsegments hus
  obtain ⟨passed, hkinds, hpassed⟩ := leads_imports himported his
  obtain ⟨tree, hkind, hrecords, hread⟩ := type_reads hc htargets hws
  obtain ⟨line, hrecord⟩ := hrecords (".".intercalate segments)
  have hleads := hfront.append hpassed
  have hparts : unitParts ((us ++ (is ++ ws)).length + 1) (us ++ (is ++ ws)) =
      front ++ (passed ++ [tree]) := by
    have hshort := hleads.short
    obtain ⟨fuel, hfuel, hlarge⟩ : ∃ fuel, (us ++ (is ++ ws)).length + 1 =
        fuel + (front ++ passed).length ∧ ws.length < fuel := by
      refine ⟨(us ++ (is ++ ws)).length + 1 - (front ++ passed).length, ?_, ?_⟩ <;>
        simp only [List.length_append] at hshort ⊢ <;> omega
    rw [hfuel, ← List.append_assoc, hleads.read, hread fuel hlarge, List.append_assoc]
  have hdeclared : packageName (.node none .program (front ++ (passed ++ [tree]))) =
      ".".intercalate segments :=
    hname _ (List.forall_mem_append.mpr ⟨hkinds, List.forall_mem_singleton.mpr (kind_ne_package hkind)⟩)
  have hempty (text : String) : (if text.isEmpty then "" else text) = text := by
    split
    · rename_i hempty
      exact (String.isEmpty_iff.mp hempty).symm
    · rfl
  -- Comments before the declarations do not matter, so the parts may be taken as they were read.
  have hunit : ofTree (unit (us ++ (is ++ ws))) "" =
      ofTree (.node none .program (unitParts ((us ++ (is ++ ws)).length + 1) (us ++ (is ++ ws)))) "" :=
    (Commented.spread _).ofTree ""
  refine ⟨line, ?_⟩
  rw [hunit, hparts, ofTree, hdeclared]
  simp only [hempty, Tree.children, List.flatMap_append, hfront.silent, hpassed.silent, List.nil_append]
  rw [List.flatMap_singleton, collect_type hkind, hrecord]

end Units

/-- Generating a unit and extracting it gives one record, that of the classifier with its edges. -/
theorem extract_generate_targets {c : Classifier} (hc : Regular c) {relationships : List Relationship}
    (htargets : RegularTargets c relationships) {style : UnitStyle} (hindent : IsIndent style.indent)
    (known? : Option (List Endpoint)) : ∃ line, extract (generate style c relationships known?) =
      [recordOf c relationships c.namespaceName line] := by
  obtain ⟨segments, hsegments, hnamespace⟩ := hc.namespaceName
  obtain ⟨imported, himported, hspells⟩ :=
    spells_generate hc hsegments hnamespace htargets hindent known?
  rw [hnamespace]
  exact ofTree_unit hc hsegments htargets himported hspells

/-- What is relied on in a reader of source text: from the unit of a regular classifier it reads one record, that
of the classifier with its edges. -/
structure ReadsUnits (read : String → List TypeRecord) : Prop where
  unit : ∀ (c : Classifier) (relationships : List Relationship) (style : UnitStyle)
    (known? : Option (List Endpoint)), Regular c → RegularTargets c relationships → IsIndent style.indent →
      ∃ line, read (generate style c relationships known?) = [recordOf c relationships c.namespaceName line]

theorem readsUnits_extract : ReadsUnits fun source => extract source :=
  ⟨fun _ _ _ known? hc htargets hindent => extract_generate_targets hc htargets hindent known?⟩

theorem extract_generate_eq {c : Classifier} (hc : Regular c) {style : UnitStyle}
    (hindent : IsIndent style.indent) (known? : Option (List Endpoint)) :
    ∃ line, extract (generate style c [] known?) = [recordIn c c.namespaceName line] := by
  obtain ⟨line, hextract⟩ := extract_generate_targets hc
    (show RegularTargets c [] from List.forall_mem_nil _) hindent known?
  have hrecord : recordOf c [] c.namespaceName line = recordIn c c.namespaceName line := by
    simp [recordOf, recordIn, namedSuperclass, namedInterfaces, supertypeNames]
  exact ⟨line, hrecord ▸ hextract⟩

/-! ## Generating and extracting -/

theorem accessIn_eq {owner : ClassifierKind} (h : owner ≠ .interface) (v : Visibility) :
    accessIn owner v = v := by
  rw [accessIn, if_neg fun hboth => h hboth.1]

theorem fieldIn_eq {owner : ClassifierKind} (h : owner ≠ .interface) : fieldIn owner = id := by
  have howner : (owner == .interface) = false := beq_eq_false_iff_ne.mpr h
  funext f
  rw [fieldIn, accessIn_eq h, howner]
  rfl

theorem operationIn_eq {owner : ClassifierKind} (h : owner ≠ .interface) : operationIn owner = id := by
  funext op
  rw [operationIn, accessIn_eq h]
  rfl

/-- Extracting the unit of a classifier gives the classifier back. In an interface the members have the
access and the modifiers that its language gives them. -/
theorem extract_generate {c : Classifier} (hc : Regular c) {style : UnitStyle}
    (hindent : IsIndent style.indent) :
    ∃ r, extract (generate style c []) = [r] ∧
      r.name = c.name ∧ r.namespaceName = c.namespaceName ∧ r.kind = c.kind ∧
      (c.kind = .«class» → r.isAbstract = c.isAbstract) ∧
      r.fields.map (fun f => (f.name, f.typeName)) = c.fields.map (fun f => (f.name, f.typeName)) ∧
      r.operations.map (fun op => (op.name, op.returnType,
          op.parameters.map fun p => (p.name, p.typeName))) =
        c.operations.map (fun op => (op.name, op.returnType,
          op.parameters.map fun p => (p.name, p.typeName))) ∧
      (c.kind ≠ .interface → r.fields = c.fields ∧ r.operations = c.operations) ∧
      (c.kind = .enumeration → r.literals = c.literals) := by
  obtain ⟨line, hextract⟩ := extract_generate_eq hc hindent none
  refine ⟨recordIn c c.namespaceName line, hextract, rfl, rfl, rfl, fun hkind => ?_, ?_, ?_,
    fun hkind => ⟨?_, ?_⟩, fun hkind => ?_⟩
  · simp [recordIn, hkind]
  · simp [recordIn, fieldIn]
  · simp [recordIn, operationIn]
  · simp [recordIn, fieldIn_eq hkind]
  · simp [recordIn, operationIn_eq hkind]
  · simp [recordIn, hkind]

/-- An enumeration with constants, a field and operations with and without a body. -/
def shade : Classifier where
  key := 0
  id := "shade"
  name := "Shade"
  namespaceName := "paint.box"
  kind := .enumeration
  isAbstract := false
  fields := [{ name := "steps", typeName := "int[][]", isStatic := true, isFinal := true }]
  operations := [
    { name := "mix", returnType := some "boolean[]", isAbstract := true
      parameters := [{ name := "tone", typeName := "char" }, { name := "weights", typeName := "long[]" }] },
    { name := "reset", visibility := .package }]
  literals := ["LIGHT", "DARK"]
  declaredSuperclass := none
  declaredInterfaces := []
  box := .standard
  style := {}

theorem regular_shade : Regular shade where
  name := by decide
  namespaceName := ⟨["paint", "box"], by decide, by decide⟩
  fields := List.forall_mem_singleton.mpr ⟨by decide, ⟨"int", by decide, 2, by decide⟩, rfl⟩
  operations := by
    refine List.forall_mem_cons.mpr ⟨⟨⟨by decide, ?_, ?_⟩, by decide⟩,
      List.forall_mem_singleton.mpr ⟨⟨by decide, by simp, by simp⟩, by decide⟩⟩
    · rintro t ⟨⟩
      exact ⟨"boolean", by decide, 1, by decide⟩
    · refine List.forall_mem_cons.mpr ⟨⟨by decide, ⟨"char", by decide, 0, by decide⟩, rfl⟩, ?_⟩
      exact List.forall_mem_singleton.mpr ⟨by decide, ⟨"long", by decide, 1, by decide⟩, rfl⟩
  literals := fun _ => by decide

theorem extract_generate_shade : ∃ r, extract (generate {} shade []) = [r] ∧
    r.name = "Shade" ∧ r.namespaceName = "paint.box" ∧ r.kind = .enumeration ∧
    r.fields = shade.fields ∧ r.operations = shade.operations ∧ r.literals = ["LIGHT", "DARK"] := by
  have hindent : IsIndent ({} : UnitStyle).indent := by decide
  obtain ⟨r, hextract, hname, hnamespace, hkind, -, -, -, hmembers, hliterals⟩ :=
    extract_generate regular_shade hindent
  obtain ⟨hfields, hoperations⟩ := hmembers (by decide)
  exact ⟨r, hextract, hname, hnamespace, hkind, hfields, hoperations, hliterals rfl⟩

end ClassAtlas.Java
