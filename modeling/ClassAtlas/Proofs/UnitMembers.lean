import ClassAtlas.Proofs.UnitSyntax

/-! # The members of a unit

The tokens of a field are read as a tree that shows the field, whatever stands behind them, and those of
an operation as one that shows the operation. -/

namespace ClassAtlas.Java

open Lexer (freed)
open Phrase (starts startsAny)

/-! ## Parameters -/

section Parameters

open Declaration

variable {ts rest : List Token} {next t : Token} {p : Parameter} {s : String} {ls : List Lexeme}
  {lead : Lead}

theorem endsModifiers_cons (ht : t.isAnyOf ("@" :: "sealed" :: modifierWords) = false)
    (hrest : isUnsealed (t :: rest) = false) : EndsModifiers (t :: rest) where
  annotation := isAnyOf_eq_false ht (by decide)
  word := isAnyOf_mono ht fun w hw => by simp [hw]
  sealed := by
    have hsealed : t.is "sealed" = false := isAnyOf_eq_false ht (by decide)
    rw [isSealed, starts, hsealed]
    rfl
  unsealed := hrest

theorem isUnsealed_cons (h : t.is "non" = false) : isUnsealed (t :: rest) = false := by
  unfold isUnsealed
  split
  · rename_i heq
    cases heq
    simp [h]
  · rfl

theorem endsModifiers_of_notMem {l : Lexeme} (h : Spells t l)
    (hl : l.text ∉ "non" :: "@" :: "sealed" :: modifierWords) : EndsModifiers (t :: rest) := by
  have hnone := h.isAnyOf_of_notMem hl
  refine endsModifiers_cons ?_ (isUnsealed_cons (isAnyOf_eq_false hnone (by decide)))
  exact h.isAnyOf_of_notMem fun hmem => hl (List.mem_cons_of_mem _ hmem)

/-- A type starts with a word that is no modifier. -/
theorem endsModifiers_type (h : Spells t ⟨.word, s, lead⟩) (hs : s ∈ Phrase.basicTypes) :
    EndsModifiers (t :: rest) := by
  have hwords : s ∉ "non" :: "@" :: "sealed" :: modifierWords := by
    clear h
    revert s
    decide
  exact endsModifiers_of_notMem h hwords

/-- The tokens of a type and what follows. -/
theorem split_type (h : List.Forall₂ Spells ts (typeLexemes s ++ ls)) :
    ∃ base pairs rest, ts = base :: (pairs ++ rest) ∧ Spells base (.word (typeBase s)) ∧
      List.Forall₂ Spells pairs (pairLexemes (typeDepth s)) ∧ List.Forall₂ Spells rest ls := by
  cases h with
  | @cons base _ _ _ hbase h =>
    obtain ⟨pairs, rest, rfl, hpairs, hrest⟩ := forall₂_append h
    exact ⟨base, pairs, rest, rfl, hbase, hpairs, hrest⟩

theorem plainType?_type {base name : Token} {pairs : List Token} (h : IsArrayOf Phrase.basicTypes s)
    (hbase : Spells base ⟨.word, typeBase s, lead⟩)
    (hpairs : List.Forall₂ Spells pairs (pairLexemes (typeDepth s))) (hat : name.is "@" = false)
    (hopen : name.is "[" = false) :
    Phrase.plainType? (base :: (pairs ++ name :: rest)) = some (name :: rest) :=
  Phrase.plainType?_array (hbase.isAnyOf_of_mem (.inl rfl) h.split.1) hpairs hat hopen

theorem tidy_typeTree {base : Token} {pairs : List Token} {n : Nat} (hbase : base.comments = [])
    (hpairs : List.Forall₂ Spells pairs (pairLexemes n)) : Tidy (typeTree (base :: pairs)) := by
  rw [typeTree_eq hpairs]
  refine tidy_node _ (fun c hc => ?_) (by decide)
  obtain ⟨t, ht, rfl⟩ := List.mem_map.mp hc
  exact tidy_leaf _ (bare_cons hbase (bare_pairs hpairs) t ht) (by decide)

/-- A name as a part of a declaration. -/
def nameTree (t : Token) : Tree := (Tree.ident t).as .name

theorem string_nameTree (h : Spells t ⟨.word, s, lead⟩) : (nameTree t).string = s := by
  have htext : (nameTree t).string = String.ofList (t.text ++ []) := rfl
  rw [htext, List.append_nil, h.text, String.ofList_toList]

theorem dimensions_none (hat : starts "@" ts = false) (hopen : starts "[" ts = false) :
    Declaration.dimensions ts = ([], ts) := by
  rw [Declaration.dimensions, Phrase.afterDimensions_eq hat hopen, if_neg (Nat.lt_irrefl _)]

theorem tidy_nameTree (h : Spells t (.word s)) : Tidy (nameTree t) :=
  tidy_leaf _ h.uncommented (by decide)

/-- The text of a name that is a part. -/
theorem partText?_name {tree : Tree} (htree : tree.child? .name = some (nameTree t))
    (h : Spells t ⟨.word, s, lead⟩) (hs : IsName s) : Extract.partText? tree .name = some s := by
  rw [Extract.partText?, htree, Option.map_some, string_nameTree h]
  simp [isEmpty_word hs.1]

/-- A parameter is read as a tree that shows it. -/
theorem parameter_reads (hp : RegularParameter p) (h : List.Forall₂ Spells ts (parameterLexemes p)) :
    ∃ tree, Tidy tree ∧ tree.isNamed = true ∧ Extract.parameter? tree = some p ∧
      ∀ next rest, next.isAnyOf ["@", "[", "."] = false →
        parameter (ts ++ next :: rest) = some (tree, next :: rest) := by
  obtain ⟨base, pairs, names, rfl, hbase, hpairs, hnames⟩ := split_type h
  obtain ⟨name, _, hname, hnil, rfl⟩ := List.forall₂_cons_right_iff.mp hnames
  cases hnil
  have htype := hp.typeName.basic
  have hparts : ∀ c ∈ [typeTree (base :: pairs), nameTree name], Tidy c := by
    simpa using ⟨tidy_typeTree hbase.uncommented hpairs, tidy_nameTree hname⟩
  let tree : Tree := .node none .parameter [typeTree (base :: pairs), nameTree name]
  have htree : Tree.make .parameter [typeTree (base :: pairs), nameTree name] = tree :=
    Tree.make_eq fun c hc => (hparts c (List.mem_of_mem_tail hc)).bare
  refine ⟨tree, tidy_node none hparts (by decide), rfl, ?_, ?_⟩
  · have hchild : tree.child? .type = some (typeTree (base :: pairs)) := by
      simp [tree, Tree.child?, Tree.children, typeTree]
    have hname? : Extract.partText? tree .name = some p.name :=
      partText?_name (by simp [tree, Tree.child?, Tree.children, typeTree, nameTree]) hname hp.name
    have hdimensions : tree.child? .dimensions = none := by
      simp [tree, Tree.child?, Tree.children, typeTree, nameTree]
    have hkind : tree.kind = .parameter := rfl
    have hshown : (⟨p.name, p.typeName, none⟩ : Parameter) = p := by rw [← hp.defaultValue]
    simp [Extract.parameter?, hkind, Extract.plainParameter?, hchild, hname?, hdimensions,
      string_typeTree htype hbase.text hpairs, htype.normalize_eq, hshown]
  · intro next rest hnext
    have hwords : name.isAnyOf ["@", "[", "...", "this"] = false :=
      hname.isAnyOf_of_notMem (hp.name.notMem (by decide))
    have hmods : modifiers (base :: (pairs ++ name :: next :: rest)) =
        ([], base :: (pairs ++ name :: next :: rest)) :=
      modifiers_none (endsModifiers_type hbase htype.split.1)
    have hplain : Phrase.plainType? (base :: (pairs ++ name :: next :: rest)) =
        some (name :: next :: rest) :=
      plainType?_type htype hbase hpairs (isAnyOf_eq_false hwords (by decide))
        (isAnyOf_eq_false hwords (by decide))
    have hbefore : before (name :: next :: rest) (base :: (pairs ++ name :: next :: rest)) =
        base :: pairs := before_append (base :: pairs) (name :: next :: rest)
    have hreceiver : isReceiver (name :: next :: rest) = false := by
      have hthis := isAnyOf_eq_false hwords (s := "this") (by decide)
      have hpoint := isAnyOf_eq_false hnext (s := ".") (by decide)
      simp [isReceiver, hthis, hpoint]
    have hdims : Declaration.dimensions (next :: rest) = ([], next :: rest) :=
      dimensions_none (isAnyOf_eq_false hnext (by decide)) (isAnyOf_eq_false hnext (by decide))
    have hpoints := isAnyOf_eq_false hwords (s := "...") (by decide)
    simpa [parameter, hmods, hplain, hdims, hbefore, hreceiver, hpoints, hname.kind, Lexeme.word,
      typeTree, nameTree] using htree

theorem tidy_word (h : t.comments = []) : Tidy (.word t) := tidy_leaf _ h (by decide)

/-- Parameters and the parenthesis behind them are read as trees that show the parameters. -/
theorem parametersFrom_reads {ps : List Parameter} (hps : ∀ p ∈ ps, RegularParameter p) (hne : ps ≠ [])
    (h : List.Forall₂ Spells ts (listed (ps.map parameterLexemes) ++ [.mark ")"])) :
    ∃ parts, (∀ c ∈ parts, Tidy c) ∧ (parts.filter (·.isNamed)).filterMap Extract.parameter? = ps ∧
      ∀ fuel rest, ts.length ≤ fuel → parametersFrom fuel (ts ++ rest) = some (parts, rest) := by
  induction ps generalizing ts with
  | nil => exact absurd rfl hne
  | cons p ps ih =>
    obtain ⟨hp, hps⟩ := List.forall_mem_cons.mp hps
    cases ps with
    | nil =>
      have h : List.Forall₂ Spells ts (parameterLexemes p ++ [.mark ")"]) := by simpa [listed] using h
      obtain ⟨us, vs, rfl, hus, hvs⟩ := forall₂_append h
      obtain ⟨close, _, hclose, hnil, rfl⟩ := List.forall₂_cons_right_iff.mp hvs
      cases hnil
      obtain ⟨tree, htidy, hnamed, hshown, hreads⟩ := parameter_reads hp hus
      have hmark : close.isAnyOf ["@", "[", "."] = false := hclose.isAnyOf_of_notMem (by decide)
      have hcomma : close.is "," = false := hclose.is_of_ne (by decide)
      have his : close.is ")" = true := hclose.is_mark
      refine ⟨[tree, .word close], ?_, ?_, ?_⟩
      · simpa using ⟨htidy, tidy_word hclose.uncommented⟩
      · have hword : (Tree.word close).isNamed = false := rfl
        simp [hnamed, hword, hshown]
      · intro fuel rest hfuel
        obtain ⟨fuel, rfl⟩ : ∃ m, fuel = m + 1 := ⟨fuel - 1, by simp at hfuel; omega⟩
        rw [List.append_assoc]
        simp [parametersFrom, hreads close rest hmark, hcomma, his]
    | cons p' ps =>
      have h : List.Forall₂ Spells ts (parameterLexemes p ++
          (.mark "," :: (listed ((p' :: ps).map parameterLexemes) ++ [.mark ")"]))) := by
        simpa [listed] using h
      obtain ⟨us, vs, rfl, hus, hvs⟩ := forall₂_append h
      obtain ⟨comma, vs, hcomma, hothers, rfl⟩ := List.forall₂_cons_right_iff.mp hvs
      obtain ⟨tree, htidy, hnamed, hshown, hreads⟩ := parameter_reads hp hus
      obtain ⟨parts, hparts, hothers, hrest⟩ := ih hps (List.cons_ne_nil _ _) hothers
      have hmark : comma.isAnyOf ["@", "[", "."] = false := hcomma.isAnyOf_of_notMem (by decide)
      have his : comma.is "," = true := hcomma.is_mark
      refine ⟨tree :: .word comma :: parts, ?_, ?_, ?_⟩
      · simpa using ⟨htidy, tidy_word hcomma.uncommented, hparts⟩
      · have hword : (Tree.word comma).isNamed = false := rfl
        simp [hnamed, hword, hshown, hothers]
      · intro fuel rest hfuel
        obtain ⟨fuel, rfl⟩ : ∃ m, fuel = m + 1 := ⟨fuel - 1, by simp at hfuel; omega⟩
        have hlength : vs.length ≤ fuel := by simp at hfuel; omega
        rw [List.append_assoc]
        simp [parametersFrom, hreads comma (vs ++ rest) hmark, his, hrest fuel rest hlength]

/-- Parameters in parentheses are read as a tree that shows them. -/
theorem parameters_reads {ps : List Parameter} (hps : ∀ p ∈ ps, RegularParameter p)
    (h : List.Forall₂ Spells ts (.mark "(" :: (listed (ps.map parameterLexemes) ++ [.mark ")"]))) :
    ∃ tree, Tidy tree ∧ tree.kind = .parameterList ∧
      tree.namedChildren.filterMap Extract.parameter? = ps ∧
      ∀ rest, parameters (ts ++ rest) = some (tree, rest) := by
  obtain ⟨opening, us, hopening, hus, rfl⟩ := List.forall₂_cons_right_iff.mp h
  have hopened : Tidy (.word opening) := tidy_word hopening.uncommented
  obtain ⟨parts, hparts, hshown, hreads⟩ : ∃ parts, (∀ c ∈ parts, Tidy c) ∧
      (parts.filter (·.isNamed)).filterMap Extract.parameter? = ps ∧
      ∀ rest, parameters (opening :: us ++ rest) =
        some (.make .parameterList (.word opening :: parts), rest) := by
    cases ps with
    | nil =>
      obtain ⟨close, _, hclose, hnil, rfl⟩ := List.forall₂_cons_right_iff.mp hus
      cases hnil
      have his : close.is ")" = true := hclose.is_mark
      refine ⟨[.word close], ?_, rfl, fun rest => ?_⟩
      · simpa using tidy_word hclose.uncommented
      · simp [parameters, his]
    | cons p ps =>
      obtain ⟨parts, hparts, hshown, hreads⟩ := parametersFrom_reads hps (List.cons_ne_nil _ _) hus
      refine ⟨parts, hparts, hshown, fun rest => ?_⟩
      obtain ⟨more, hmore⟩ : ∃ more, listed ((p :: ps).map parameterLexemes) ++ [.mark ")"] =
          .word (typeBase p.typeName) :: more := by
        cases ps with
        | nil => exact ⟨_, by simp [listed, parameterLexemes, typeLexemes]; rfl⟩
        | cons p' ps => exact ⟨_, by simp [listed, parameterLexemes, typeLexemes]; rfl⟩
      rw [hmore] at hus
      obtain ⟨base, vs, hbase, -, rfl⟩ := List.forall₂_cons_right_iff.mp hus
      have hclose : base.is ")" = false := by
        have hne : typeBase p.typeName ≠ ")" := fun heq =>
          absurd (heq ▸ (hps p List.mem_cons_self).typeName.basic.split.1) (by decide)
        exact hbase.is_of_ne hne
      have hfrom := hreads (opening :: base :: (vs ++ rest)).length rest
        (by simp only [List.length_cons, List.length_append]; omega)
      rw [List.cons_append] at hfrom
      simp only [parameters, List.cons_append, hclose, hfrom]
      rfl
  have htree : Tree.make .parameterList (.word opening :: parts) =
      .node none .parameterList (.word opening :: parts) :=
    Tree.make_eq fun c hc => (hparts c hc).bare
  refine ⟨.node none .parameterList (.word opening :: parts), tidy_node none ?_ (by decide), rfl, ?_, ?_⟩
  · exact List.forall_mem_cons.mpr ⟨hopened, hparts⟩
  · exact hshown
  · intro rest
    rw [hreads rest, htree]

end Parameters

/-! ## Members -/

/-- The tokens that fields and operations start with: modifiers, a type and a name. Only the first of
them may have comments before it. -/
structure Typed (words : List String) (typeName name : String) (mods : List Token) (base : Token)
    (pairs : List Token) (named : Token) : Prop where
  spelled : List.Forall₂ (fun t w => Spells t ⟨.word, w, .any⟩) mods words
  unmixed : Bare mods.tail
  type : Spells base ⟨.word, typeBase typeName, .any⟩
  apart : mods ≠ [] → base.comments = []
  brackets : List.Forall₂ Spells pairs (pairLexemes (typeDepth typeName))
  called : Spells named (.word name)

/-- A member from its modifiers on. -/
def memberTree (k : Kind) (mods typed : List Token) (others : List Tree) : Tree :=
  .node none k (Declaration.modifierTrees mods ++ Declaration.typeTree typed :: others)

section Members

open Declaration

variable {words : List String} {typeName name : String} {ts mods pairs rest : List Token}
  {base named t : Token} {others : List Tree} {k : Kind} {ls : List Lexeme}

theorem spells_words (h : List.Forall₂ Spells ts (words.map .word)) :
    List.Forall₂ (fun t w => Spells t ⟨.word, w, .any⟩) ts words ∧ Bare ts := by
  constructor
  · rw [List.forall₂_map_right_iff] at h
    exact h.imp fun _ _ h => h.free
  · refine bare_of_spells h fun l hl => ?_
    obtain ⟨w, -, rfl⟩ := List.mem_map.mp hl
    simp

theorem split_typed
    (h : List.Forall₂ Spells ts (freed (words.map .word ++ typeLexemes typeName ++ .word name :: ls))) :
    ∃ mods base pairs named rest, ts = mods ++ base :: (pairs ++ named :: rest) ∧
      Typed words typeName name mods base pairs named ∧ List.Forall₂ Spells rest ls := by
  cases words with
  | nil =>
    obtain ⟨base, us, hbase, hus, rfl⟩ := List.forall₂_cons_right_iff.mp h
    obtain ⟨pairs, vs, rfl, hpairs, hvs⟩ := forall₂_append hus
    obtain ⟨named, rest, hnamed, hrest, rfl⟩ := List.forall₂_cons_right_iff.mp hvs
    refine ⟨[], base, pairs, named, rest, rfl, ?_, hrest⟩
    exact ⟨.nil, List.forall_mem_nil _, hbase, (absurd rfl ·), hpairs, hnamed⟩
  | cons w words =>
    rw [List.append_assoc] at h
    obtain ⟨first, us, hfirst, hus, rfl⟩ := List.forall₂_cons_right_iff.mp h
    obtain ⟨mods, vs, rfl, hmods, hvs⟩ := forall₂_append hus
    obtain ⟨base, pairs, vs, rfl, hbase, hpairs, hvs⟩ := split_type hvs
    obtain ⟨named, rest, hnamed, hrest, rfl⟩ := List.forall₂_cons_right_iff.mp hvs
    obtain ⟨hmods, hbare⟩ := spells_words hmods
    refine ⟨first :: mods, base, pairs, named, rest, rfl, ?_, hrest⟩
    exact ⟨.cons hfirst hmods, hbare, hbase.free, fun _ => hbase.uncommented, hpairs, hnamed⟩

theorem isModifier_of_spells (h : List.Forall₂ (fun t w => Spells t ⟨.word, w, .any⟩) mods words)
    (hwords : ∀ w ∈ words, w ∈ modifierWords) :
    ∀ t ∈ mods, t.isAnyOf modifierWords = true ∧ t.is "@" = false := by
  induction h with
  | nil => exact List.forall_mem_nil _
  | @cons t w _ _ ht _ ih =>
    obtain ⟨hw, hwords⟩ := List.forall_mem_cons.mp hwords
    refine List.forall_mem_cons.mpr ⟨⟨ht.isAnyOf_of_mem (.inl rfl) hw, ht.is_of_ne ?_⟩, ih hwords⟩
    rintro rfl
    exact absurd hw (by decide)

theorem texts_of_spells (h : List.Forall₂ (fun t w => Spells t ⟨.word, w, .any⟩) mods words) :
    mods.map (fun t => (Tree.word t).string) = words := by
  induction h with
  | nil => rfl
  | @cons t w _ _ ht _ ih =>
    have hstring : (Tree.word t).string = String.ofList (t.text ++ []) := rfl
    rw [List.map_cons, ih, hstring, List.append_nil, ht.text, String.ofList_toList]

theorem modifierTexts (h : List.Forall₂ (fun t w => Spells t ⟨.word, w, .any⟩) mods words) :
    ((mods.map Tree.word).filter fun c => c.kind != .annotationUse).map (·.string) = words := by
  have hfilter : (mods.map Tree.word).filter (fun c => c.kind != .annotationUse) =
      mods.map Tree.word := by
    rw [List.filter_eq_self]
    intro c hc
    obtain ⟨t, -, rfl⟩ := List.mem_map.mp hc
    rfl
  rw [hfilter, List.map_map, ← texts_of_spells h]
  rfl

/-- Modifiers are one part, if there are any. -/
theorem modifierTrees_eq (h : Bare mods.tail) :
    modifierTrees mods = if mods.isEmpty then [] else [.node none .modifiers (mods.map .word)] := by
  rw [modifierTrees, Tree.flat_eq h]

theorem Typed.modifiers (h : Typed words typeName name mods base pairs named)
    (hwords : ∀ w ∈ words, w ∈ modifierWords) (htype : IsArrayOf Phrase.basicTypes typeName) :
    modifiers (mods ++ base :: rest) = (modifierTrees mods, base :: rest) :=
  modifiers_words (isModifier_of_spells h.spelled hwords) (endsModifiers_type h.type htype.split.1)

/-- The words of a member's modifiers. -/
theorem Typed.modifierWords (h : Typed words typeName name mods base pairs named)
    (hothers : ∀ c ∈ others, c.kind ≠ .modifiers) :
    Extract.modifierWords (memberTree k mods (base :: pairs) others) = words := by
  have htexts := modifierTexts h.spelled
  have hchild : (memberTree k mods (base :: pairs) others).childOfKind? .modifiers =
      if mods.isEmpty then none else some (.node none .modifiers (mods.map .word)) := by
    unfold Tree.childOfKind? memberTree
    rw [modifierTrees_eq h.unmixed, typeTree_eq h.brackets]
    cases mods with
    | nil =>
      refine List.find?_eq_none.mpr (List.forall_mem_cons.mpr ⟨Bool.false_ne_true, fun c hc => ?_⟩)
      simpa using hothers c hc
    | cons t mods => rfl
  rw [Extract.modifierWords, hchild]
  cases mods with
  | nil => exact htexts
  | cons t mods => exact htexts

theorem Typed.make_eq (h : Typed words typeName name mods base pairs named)
    (hothers : ∀ c ∈ others, Tidy c) :
    Tree.make k (modifierTrees mods ++ typeTree (base :: pairs) :: others) =
      memberTree k mods (base :: pairs) others := by
  refine Tree.make_eq ?_
  rw [modifierTrees_eq h.unmixed]
  cases mods with
  | nil => exact fun c hc => (hothers c hc).bare
  | cons t mods =>
    have htype := tidy_typeTree (h.apart (List.cons_ne_nil _ _)) h.brackets
    exact List.forall_mem_cons.mpr ⟨htype.bare, fun c hc => (hothers c hc).bare⟩

theorem Typed.headerHasError (h : Typed words typeName name mods base pairs named)
    (hothers : ∀ c ∈ others, c.hasError = false) :
    Extract.headerHasError (memberTree k mods (base :: pairs) others) = false := by
  have hwords (p : Option Part) (k : Kind) (ts : List Token) (hk : k ≠ .error) :
      (Tree.node p k (ts.map .word)).hasError = false := by
    rw [Tree.hasError, Tree.anyError_map_word, Bool.or_false, beq_eq_false_iff_ne]
    exact hk
  have hall : ∀ c ∈ modifierTrees mods ++ typeTree (base :: pairs) :: others, c.hasError = false := by
    rw [modifierTrees_eq h.unmixed, typeTree_eq h.brackets]
    refine List.forall_mem_append.mpr ⟨?_, List.forall_mem_cons.mpr ⟨hwords _ _ _ (by decide), hothers⟩⟩
    cases mods with
    | nil => exact List.forall_mem_nil _
    | cons t mods => exact List.forall_mem_singleton.mpr (hwords _ _ _ (by decide))
  rw [Extract.headerHasError, List.any_eq_false]
  intro c hc
  rw [hall c hc, Bool.and_false]
  exact Bool.false_ne_true

theorem Typed.child?_type (h : Typed words typeName name mods base pairs named) :
    (memberTree k mods (base :: pairs) others).child? .type = some (typeTree (base :: pairs)) := by
  unfold Tree.child? memberTree
  rw [modifierTrees_eq h.unmixed, typeTree_eq h.brackets]
  cases mods <;> rfl

theorem Typed.child?_other (h : Typed words typeName name mods base pairs named) {p : Part}
    (hp : p ≠ .type) : (memberTree k mods (base :: pairs) others).child? p =
      others.find? (·.part? == some p) := by
  have htype : (some Part.type == some p) = false := by simpa using hp.symm
  unfold Tree.child? memberTree
  rw [modifierTrees_eq h.unmixed, typeTree_eq h.brackets]
  cases mods <;> simp [Tree.children, Tree.part?, htype]

theorem isAnnotationType_cons (h : t.is "@" = false) : isAnnotationType (t :: rest) = false := by
  unfold isAnnotationType
  split
  · rename_i heq
    cases heq
    rw [h]
    rfl
  · rfl

theorem isRecord_cons (h : t.is "record" = false) : isRecord (t :: rest) = false := by
  unfold isRecord
  split
  · rename_i heq
    cases heq
    rw [h]
    rfl
  · rfl

theorem Typed.isAnyOf_base (h : Typed words typeName name mods base pairs named)
    (htype : IsArrayOf Phrase.basicTypes typeName) {marks : List String}
    (hmarks : ∀ w ∈ Phrase.basicTypes, w ∉ marks) : base.isAnyOf marks = false :=
  h.type.isAnyOf_of_notMem (hmarks _ htype.split.1)

/-- What stands behind the first word of a type. -/
theorem Typed.next (h : Typed words typeName name mods base pairs named) (hname : IsName name)
    (rest : List Token) :
    ∃ next more, pairs ++ named :: rest = next :: more ∧ next.isAnyOf ["(", "\x7b"] = false := by
  have hpairs := h.brackets
  cases pairs with
  | nil =>
    exact ⟨named, rest, rfl, h.called.isAnyOf_of_notMem (hname.notMem (by decide))⟩
  | cons t pairs =>
    refine ⟨t, pairs ++ named :: rest, rfl, ?_⟩
    cases hdepth : typeDepth typeName with
    | zero =>
      rw [hdepth] at hpairs
      cases hpairs
    | succ n =>
      rw [hdepth] at hpairs
      obtain ⟨_, _, hopening, -, heq⟩ := List.forall₂_cons_right_iff.mp
        (show List.Forall₂ Spells (t :: pairs) (.suffix "[" :: (.suffix "]" :: pairLexemes n)) from hpairs)
      cases heq
      exact hopening.isAnyOf_of_notMem (by decide)

theorem member_typed (h : Typed words typeName name mods base pairs named)
    (hwords : ∀ w ∈ words, w ∈ modifierWords) (htype : IsArrayOf Phrase.basicTypes typeName)
    (hname : IsName name) (fuel : Nat) :
    member (fuel + 1) (mods ++ base :: (pairs ++ named :: rest)) =
      typedMember (modifierTrees mods) false (base :: (pairs ++ named :: rest)) := by
  have hmarks : base.isAnyOf [";", "\x7b", "@", "record", "<"] = false := h.isAnyOf_base htype (by decide)
  have htypes : base.isAnyOf Declaration.typeWords = false := h.isAnyOf_base htype (by decide)
  have hsemicolon : base.is ";" = false := isAnyOf_eq_false hmarks (by decide)
  have hbrace : base.is "\x7b" = false := isAnyOf_eq_false hmarks (by decide)
  have hangle : starts "<" (base :: (pairs ++ named :: rest)) = false :=
    isAnyOf_eq_false hmarks (by decide)
  have hannotation : isAnnotationType (base :: (pairs ++ named :: rest)) = false :=
    isAnnotationType_cons (isAnyOf_eq_false hmarks (by decide))
  have hrecord : isRecord (base :: (pairs ++ named :: rest)) = false :=
    isRecord_cons (isAnyOf_eq_false hmarks (by decide))
  have hmods : modifiers (mods ++ base :: (pairs ++ named :: rest)) =
      (modifierTrees mods, base :: (pairs ++ named :: rest)) := h.modifiers hwords htype
  obtain ⟨next, more, hmore, hnext⟩ := h.next hname rest
  have hcall : next.is "(" = false := isAnyOf_eq_false hnext (by decide)
  have hblock : next.is "\x7b" = false := isAnyOf_eq_false hnext (by decide)
  have hplain : plainMember (modifierTrees mods) (base :: (pairs ++ named :: rest)) =
      typedMember (modifierTrees mods) false (base :: (pairs ++ named :: rest)) := by
    unfold plainMember
    rw [hangle]
    simp only [Bool.false_eq_true, if_false, List.append_nil, hmore, hcall, hblock, Bool.and_false]
    rfl
  unfold member
  rw [hmods]
  simp only [hsemicolon, hbrace, htypes, hannotation, hrecord, Bool.false_and, Bool.or_false,
    Bool.false_eq_true, if_false, hplain]

/-- A field or an operation has a type and a name. -/
theorem typedMember_eq (h : Typed words typeName name mods base pairs named)
    (htype : IsArrayOf Phrase.basicTypes typeName) (hname : IsName name) (head : List Tree)
    (next : Token) :
    typedMember head false (base :: (pairs ++ named :: next :: rest)) =
      if next.is "(" then
        match parameters (next :: rest) with
        | none => .failed (next :: rest) .elsewhere
        | some (ps, after) =>
          methodEnd (head ++ [typeTree (base :: pairs), nameTree named, ps.as .parameters]) after
      else fieldEnd (base :: (pairs ++ named :: next :: rest)).length
        (head ++ [typeTree (base :: pairs)]) (named :: next :: rest) := by
  have hwords : named.isAnyOf ["@", "["] = false := h.called.isAnyOf_of_notMem (hname.notMem (by decide))
  have hrestart : restarts (named :: next :: rest) = false :=
    h.called.isAnyOf_of_notMem (hname.notMem (by decide))
  have hplain : Phrase.plainType? (base :: (pairs ++ named :: next :: rest)) =
      some (named :: next :: rest) :=
    plainType?_type htype h.type h.brackets (isAnyOf_eq_false hwords (by decide))
      (isAnyOf_eq_false hwords (by decide))
  have hbefore : before (named :: next :: rest) (base :: (pairs ++ named :: next :: rest)) =
      base :: pairs := before_append (base :: pairs) (named :: next :: rest)
  have hkind : named.kind = .word := h.called.kind
  unfold typedMember
  cases hparameters : parameters (next :: rest) <;>
    simp [hplain, hkind, hbefore, hrestart, hparameters, typeTree, nameTree, starts]

theorem declarator_eq (hkind : named.kind = .word) (hnext : t.isAnyOf ["@", "[", "="] = false) :
    declarator (named :: t :: rest) = .ok (.node none .declarator [nameTree named], t :: rest) := by
  have hdims : Declaration.dimensions (t :: rest) = ([], t :: rest) :=
    dimensions_none (isAnyOf_eq_false hnext (by decide)) (isAnyOf_eq_false hnext (by decide))
  have hequals : t.is "=" = false := isAnyOf_eq_false hnext (by decide)
  simp only [declarator, hkind, hdims, hequals, bne_self_eq_false, Bool.false_eq_true, if_false]
  rfl

theorem Typed.head (h : Typed words typeName name mods base pairs named)
    (hwords : ∀ w ∈ words, w ∈ Declaration.modifierWords) (htype : IsArrayOf Phrase.basicTypes typeName) :
    ∃ t ts, mods ++ base :: rest = t :: ts ∧ t.is "\x7d" = false := by
  have hspelled := h.spelled
  cases hspelled with
  | nil =>
    have hclose : base.isAnyOf ["\x7d"] = false := h.isAnyOf_base htype (by decide)
    exact ⟨base, rest, rfl, isAnyOf_eq_false hclose (by decide)⟩
  | @cons t w mods _ ht _ =>
    refine ⟨t, mods ++ base :: rest, rfl, ht.is_of_ne ?_⟩
    rintro rfl
    exact absurd (hwords _ List.mem_cons_self) (by decide)

theorem Typed.childrenAs_other (h : Typed words typeName name mods base pairs named) {p : Part}
    (hp : p ≠ .type) : (memberTree k mods (base :: pairs) others).childrenAs p =
      others.filter (·.part? == some p) := by
  have htype : (some Part.type == some p) = false := by simpa using hp.symm
  unfold Tree.childrenAs memberTree
  rw [modifierTrees_eq h.unmixed, typeTree_eq h.brackets]
  cases mods <;> simp [Tree.children, Tree.part?, htype]

/-! ### Fields -/

/-- The access of a member as it is read from the body of a type. -/
def accessIn (owner : ClassifierKind) (v : Visibility) : Visibility :=
  if owner = .interface ∧ v = .package then .public else v

/-- A field as it is read from the body of a type. -/
def fieldIn (owner : ClassifierKind) (f : Field) : Field :=
  { f with
    visibility := accessIn owner f.visibility
    isStatic := owner == .interface || f.isStatic
    isFinal := owner == .interface || f.isFinal }

theorem visibility_fieldWords (owner : ClassifierKind) (f : Field) :
    Extract.visibility (fieldWords f) (owner == .interface) = accessIn owner f.visibility := by
  unfold fieldWords
  cases owner <;> cases f.visibility <;> cases f.isStatic <;> cases f.isFinal <;> rfl

theorem contains_fieldWords (f : Field) : (fieldWords f).contains "static" = f.isStatic ∧
    (fieldWords f).contains "final" = f.isFinal := by
  unfold fieldWords
  cases f.visibility <;> cases f.isStatic <;> cases f.isFinal <;> exact ⟨rfl, rfl⟩

/-- The tokens of a field are read as a tree that shows the field. -/
theorem field_reads {f : Field} (hf : RegularField f)
    (h : List.Forall₂ Spells ts (freed (fieldLexemes f))) (owner : ClassifierKind) :
    (∃ t us, ts = t :: us ∧ t.is "\x7d" = false) ∧
    ∃ tree, (tree.kind = .fieldDeclaration ∧ Extract.fields owner tree = [fieldIn owner f]) ∧
      ∀ fuel rest, member (fuel + 1) (ts ++ rest) = .read tree rest := by
  have hwords := fieldWords_modifiers f
  have htype := hf.typeName.basic
  obtain ⟨mods, base, pairs, named, ends, rfl, htyped, hends⟩ := split_typed h
  obtain ⟨semicolon, _, hsemicolon, hnil, rfl⟩ := List.forall₂_cons_right_iff.mp hends
  cases hnil
  let declared : Tree := .node (some .declarator) .declarator [nameTree named]
  let others : List Tree := [declared, .word semicolon]
  have hothers : ∀ c ∈ others, Tidy c := by
    have hdeclared : Tidy declared :=
      tidy_node _ (List.forall_mem_singleton.mpr (tidy_nameTree htyped.called)) (by decide)
    simpa [others] using ⟨hdeclared, tidy_word hsemicolon.uncommented⟩
  let tree := memberTree .fieldDeclaration mods (base :: pairs) others
  refine ⟨htyped.head hwords htype, tree, ⟨rfl, ?_⟩, fun fuel rest => ?_⟩
  · have hsound : Extract.headerHasError tree = false :=
      htyped.headerHasError fun c hc => (hothers c hc).sound
    have hchildren : tree.childrenAs .declarator = [declared] :=
      (htyped.childrenAs_other (by decide)).trans rfl
    have hmodifiers : Extract.modifierWords tree = fieldWords f :=
      htyped.modifierWords (by simp [others, declared, Tree.kind, Tree.word])
    have hname : Extract.partText? declared .name = some f.name := partText?_name rfl htyped.called hf.name
    have hdeclared : Extract.declaredType f.typeName declared = f.typeName := rfl
    have hvalue : declared.child? .value = none := rfl
    obtain ⟨hstatic, hfinal⟩ := contains_fieldWords f
    unfold Extract.fields
    rw [hsound, hmodifiers, hchildren, htyped.child?_type]
    simp only [Extract.normalized, string_typeTree htype htyped.type.text htyped.brackets,
      htype.normalize_eq, visibility_fieldWords, hstatic, hfinal, List.filterMap_cons,
      List.filterMap_nil, hname, hdeclared, hvalue, Option.map_some, Option.map_none,
      Bool.false_eq_true, if_false]
    rw [fieldIn, hf.defaultValue]
  · have hmark : semicolon.isAnyOf ["(", ","] = false := hsemicolon.isAnyOf_of_notMem (by decide)
    have hcall : semicolon.is "(" = false := isAnyOf_eq_false hmark (by decide)
    have hcomma : semicolon.is "," = false := isAnyOf_eq_false hmark (by decide)
    have his : semicolon.is ";" = true := hsemicolon.is_mark
    have hdeclarator : declarator (named :: semicolon :: rest) =
        .ok (.node none .declarator [nameTree named], semicolon :: rest) :=
      declarator_eq htyped.called.kind (hsemicolon.isAnyOf_of_notMem (by decide))
    have htree : Tree.make .fieldDeclaration (modifierTrees mods ++ typeTree (base :: pairs) :: others) =
        tree := htyped.make_eq hothers
    have hend : fieldEnd (base :: (pairs ++ named :: semicolon :: rest)).length
        (modifierTrees mods ++ [typeTree (base :: pairs)]) (named :: semicolon :: rest) =
        .read tree rest := by
      rw [List.length_cons, fieldEnd, hdeclarator]
      simp only [hcomma, his, Bool.false_eq_true, if_false, if_true, List.append_assoc,
        List.cons_append, List.nil_append]
      exact congrArg (Reading.read · rest) htree
    rw [List.append_assoc, List.cons_append, List.append_assoc, List.cons_append, List.cons_append,
      List.nil_append, member_typed htyped hwords htype hf.name, typedMember_eq htyped htype hf.name, hcall,
      if_neg Bool.false_ne_true]
    exact hend

/-! ### Operations -/

/-- An operation as it is read from the body of a type. -/
def operationIn (owner : ClassifierKind) (op : Operation) : Operation :=
  { op with visibility := accessIn owner op.visibility }

theorem visibility_operationWords (owner : ClassifierKind) (op : Operation) :
    Extract.visibility (operationWords op) (owner == .interface) = accessIn owner op.visibility := by
  unfold operationWords
  cases owner <;> cases op.visibility <;> cases op.isStatic <;> cases op.isAbstract <;>
    cases op.isFinal <;> rfl

theorem contains_operationWords (op : Operation) :
    (operationWords op).contains "static" = op.isStatic ∧
      (operationWords op).contains "abstract" = op.isAbstract ∧
      (operationWords op).contains "final" = op.isFinal := by
  unfold operationWords
  cases op.visibility <;> cases op.isStatic <;> cases op.isAbstract <;> cases op.isFinal <;>
    exact ⟨rfl, rfl, rfl⟩

theorem primitive_ne_void {s : String} (h : IsArrayOf primitives s) : s ≠ voidWord := by
  rintro rfl
  obtain ⟨base, hbase, n, hs⟩ := h
  have hbase' := typeBase_eq (primitive_basic hbase) hs
  rw [← hbase'] at hbase
  exact absurd hbase (by decide)

/-- The word for the return type tells whether there is one. -/
theorem returnType_of_word {op : Operation} (h : RegularOperation op) :
    (if returnWord op == "void" then none else some (returnWord op)) = op.returnType := by
  unfold returnWord
  cases hreturn : op.returnType with
  | none => rfl
  | some t =>
    have ht := h.returnType t hreturn
    have hne : (t == "void") = false := beq_eq_false_iff_ne.mpr (primitive_ne_void ht)
    simp only [Label.isVoid_string, Label.shown_string, ht.basic.isEmpty, Bool.false_eq_true, if_false, hne]

/-- What ends an operation: a semicolon or a block. -/
structure EndsMethod (t : Tree) : Prop extends Tidy t where
  kind : t.kind = .word ∨ t.kind = .block
  part : t.part? = none ∨ t.part? = some .body

theorem methodEnd_eq (h : t.isAnyOf ["@", "[", "throws"] = false) (head : List Tree) :
    methodEnd head (t :: rest) =
      if t.is ";" then .read (.make .methodDeclaration (head ++ [.word t])) rest
      else if t.is "\x7b" then
        match block? (t :: rest) with
        | some (b, after) => .read (.make .methodDeclaration (head ++ [b.as .body])) after
        | none => .cut head
      else .failed (t :: rest) .complete := by
  have hdims : Phrase.afterDimensions (t :: rest) = t :: rest :=
    Phrase.afterDimensions_eq (isAnyOf_eq_false h (by decide)) (isAnyOf_eq_false h (by decide))
  have hthrows : t.is "throws" = false := isAnyOf_eq_false h (by decide)
  cases hblock : block? (t :: rest) <;> simp [methodEnd, hdims, throwsClause, hthrows, hblock]

theorem isAnyOf_of_spells {marks : List String} (h : List.Forall₂ Spells ts ls)
    (hls : ∀ l ∈ ls, l.text ∉ marks) : ∀ t ∈ ts, t.isAnyOf marks = false := by
  induction h with
  | nil => exact List.forall_mem_nil _
  | cons hhead _ ih =>
    obtain ⟨hl, hls⟩ := List.forall_mem_cons.mp hls
    exact List.forall_mem_cons.mpr ⟨hhead.isAnyOf_of_notMem hl, ih hls⟩

theorem stubLexeme_mem (s : String) : stubLexeme s ∈
    [.word "false", ⟨.number, "0", .blank⟩, ⟨.literal, "'\\0'", .blank⟩, .word "null"] := by
  unfold stubLexeme
  split
  · simp
  · split
    · simp
    · split <;> simp

theorem methodEnd_reads {owner : ClassifierKind} {op : Operation}
    (h : List.Forall₂ Spells ts (bodyLexemes owner op)) :
    ∃ last, EndsMethod last ∧ ∀ head rest,
      methodEnd head (ts ++ rest) = .read (.make .methodDeclaration (head ++ [last])) rest := by
  unfold bodyLexemes at h
  split at h
  · obtain ⟨semicolon, _, hsemicolon, hnil, rfl⟩ := List.forall₂_cons_right_iff.mp h
    cases hnil
    have his : semicolon.is ";" = true := hsemicolon.is_mark
    refine ⟨.word semicolon, ⟨tidy_word hsemicolon.uncommented, .inl rfl, .inl rfl⟩, fun head rest => ?_⟩
    rw [List.cons_append, methodEnd_eq (hsemicolon.isAnyOf_of_notMem (by decide)), his]
    rfl
  · generalize hls : (if returnWord op = voidWord then []
        else [.word "return", stubLexeme (returnWord op), .mark ";"] : List Lexeme) = ls at h
    have hlexemes : ∀ l ∈ ls, l.text ∉ ["\x7b", "\x7d"] ∧ l.lead ≠ .any := by
      rw [← hls]
      have hstub := stubLexeme_mem (returnWord op)
      split
      · exact List.forall_mem_nil _
      · generalize stubLexeme (returnWord op) = l at hstub ⊢
        clear hls
        revert l
        decide
    obtain ⟨opening, us, hopening, hus, rfl⟩ := List.forall₂_cons_right_iff.mp h
    obtain ⟨inner, vs, rfl, hinner, hvs⟩ := forall₂_append hus
    obtain ⟨close, _, hclose, hnil, rfl⟩ := List.forall₂_cons_right_iff.mp hvs
    cases hnil
    have hmarks := isAnyOf_of_spells hinner fun l hl => (hlexemes l hl).1
    have hbraces (rest : List Token) :
        Phrase.braces (opening :: (inner ++ close :: rest)) = some rest :=
      Phrase.braces_eq hopening.is_mark hclose.is_mark
        (hclose.is_of_ne (by decide)) fun t ht =>
          ⟨isAnyOf_eq_false (hmarks t ht) (by decide), isAnyOf_eq_false (hmarks t ht) (by decide)⟩
    have hbare : Bare (opening :: (inner ++ [close])) :=
      bare_cons hopening.uncommented (List.forall_mem_append.mpr
        ⟨bare_of_spells hinner fun l hl => (hlexemes l hl).2, bare_singleton hclose.uncommented⟩)
    have hblock : Tidy (Tree.node (some .body) .block ((opening :: (inner ++ [close])).map .word)) := by
      refine tidy_node _ (fun c hc => ?_) (by decide)
      obtain ⟨t, ht, rfl⟩ := List.mem_map.mp hc
      exact tidy_word (hbare t ht)
    refine ⟨_, ⟨hblock, .inr rfl, .inr rfl⟩, fun head rest => ?_⟩
    have hbefore : before rest (opening :: (inner ++ close :: rest)) = opening :: (inner ++ [close]) := by
      simpa using before_append (opening :: (inner ++ [close])) rest
    have hflat : Tree.flat .block (opening :: (inner ++ [close])) =
        .node none .block ((opening :: (inner ++ [close])).map .word) :=
      Tree.flat_eq fun t ht => hbare t (List.mem_of_mem_tail ht)
    have hsemicolon : opening.is ";" = false := hopening.is_of_ne (by decide)
    have his : opening.is "\x7b" = true := hopening.is_mark
    have hread : block? (opening :: (inner ++ close :: rest)) =
        some (.node none .block ((opening :: (inner ++ [close])).map .word), rest) := by
      rw [block?, hbraces rest]
      simp only [hbefore, hflat]
    rw [List.cons_append, List.append_assoc, List.cons_append, List.nil_append,
      methodEnd_eq (hopening.isAnyOf_of_notMem (by decide)), hsemicolon, his, hread]
    rfl

/-- The tokens of an operation are read as a tree that shows the operation. -/
theorem operation_reads {op : Operation} (hop : RegularOperation op) (owner : ClassifierKind)
    (h : List.Forall₂ Spells ts (freed (operationLexemes owner op))) :
    (∃ t us, ts = t :: us ∧ t.is "\x7d" = false) ∧
    ∃ tree, (tree.kind = .methodDeclaration ∧
      Extract.operation? owner tree = some (operationIn owner op)) ∧
      ∀ fuel rest, member (fuel + 1) (ts ++ rest) = .read tree rest := by
  have hwords := operationWords_modifiers op
  have htype := isArrayOf_returnWord hop
  have hlexemes : operationLexemes owner op = (operationWords op).map .word ++
      typeLexemes (returnWord op) ++ .word op.name ::
        ((.mark "(" :: (listed (op.parameters.map parameterLexemes) ++ [.mark ")"])) ++
          bodyLexemes owner op) := by simp [operationLexemes, signatureLexemes]
  rw [hlexemes] at h
  obtain ⟨mods, base, pairs, named, ends, rfl, htyped, hends⟩ := split_typed h
  obtain ⟨us, vs, rfl, hus, hvs⟩ := forall₂_append hends
  obtain ⟨ps, hps, hkind, hshown, hparameters⟩ := parameters_reads hop.parameters hus
  obtain ⟨last, hlast, hend⟩ := methodEnd_reads hvs
  let others : List Tree := [nameTree named, ps.as .parameters, last]
  have hothers : ∀ c ∈ others, Tidy c := by
    simpa [others] using ⟨tidy_nameTree htyped.called, hps.as .parameters, hlast.toTidy⟩
  let tree := memberTree .methodDeclaration mods (base :: pairs) others
  refine ⟨htyped.head hwords htype, tree, ⟨rfl, ?_⟩, fun fuel rest => ?_⟩
  · have hsound : Extract.headerHasError tree = false :=
      htyped.headerHasError fun c hc => (hothers c hc).sound
    have hname : Extract.partText? tree .name = some op.name :=
      partText?_name ((htyped.child?_other (by decide)).trans rfl) htyped.called hop.name
    have hchild : tree.child? .parameters = some (ps.as .parameters) := by
      refine (htyped.child?_other (by decide)).trans ?_
      simp [others, nameTree]
    have hmodifiers : Extract.modifierWords tree = operationWords op := by
      refine htyped.modifierWords ?_
      have hlastKind : last.kind ≠ .modifiers := by
        rcases hlast.kind with hkind | hkind <;> simp [hkind]
      have hnameKind : (nameTree named).kind = .identifier := rfl
      simp [others, hnameKind, hkind, hlastKind]
    have hnamed : (ps.as .parameters).namedChildren = ps.namedChildren := by
      rw [Tree.namedChildren, Tree.children_as]
      rfl
    obtain ⟨hstatic, habstract, hfinal⟩ := contains_operationWords op
    unfold Extract.operation?
    rw [hsound, hmodifiers, hname, hchild, htyped.child?_type]
    simp only [Extract.normalized, string_typeTree htype htyped.type.text htyped.brackets,
      htype.normalize_eq, visibility_operationWords, hstatic, habstract, hfinal, hnamed, hshown,
      returnType_of_word hop, Bool.false_eq_true, if_false, Option.bind_eq_bind, Option.bind_some]
    rfl
  · obtain ⟨opening, inner, hopening, -, rfl⟩ := List.forall₂_cons_right_iff.mp hus
    have his : opening.is "(" = true := hopening.is_mark
    have htree : Tree.make .methodDeclaration (modifierTrees mods ++ typeTree (base :: pairs) :: others) =
        tree := htyped.make_eq hothers
    have hread := hparameters (vs ++ rest)
    rw [List.cons_append] at hread
    rw [List.append_assoc, List.cons_append, List.append_assoc, List.cons_append, List.append_assoc,
      List.cons_append, member_typed htyped hwords htype hop.name, typedMember_eq htyped htype hop.name,
      his, if_pos rfl, hread]
    simp only [hend, List.append_assoc, List.cons_append, List.nil_append]
    exact congrArg (Reading.read · rest) htree

end Members

end ClassAtlas.Java
