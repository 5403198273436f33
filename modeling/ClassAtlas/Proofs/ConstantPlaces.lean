import ClassAtlas.Proofs.CommentedTrees
import ClassAtlas.Proofs.UnitSyntax

/-! # Where constants stand

A constant is read only in the body of an enumeration, and what stands in the body of a class or an
interface is no constant, however broken the text is. So of all records of a unit only those of
enumerations have literals. -/

namespace ClassAtlas.Java

open Extract

/-- Only enumerations have literals among the records of a node. -/
def OnlyEnums (t : Tree) : Prop :=
  ∀ namespaceName, ∀ r ∈ collect namespaceName t, r.literals ≠ [] → r.kind = .enumeration

/-- What may stand in the body of a declaration. Only the body of an enumeration holds constants and a
node for its members. -/
structure FitsBody (k : Kind) (t : Tree) : Prop where
  constant : k ≠ .enumDeclaration → t.kind ≠ .enumConstant
  members : t.kind = .enumMembers → k = .enumDeclaration ∧ ∀ c ∈ t.children, OnlyEnums c
  onlyEnums : OnlyEnums t

/-- Nodes of these kinds declare no type and are looked into nowhere. -/
def Kind.isInert : Kind → Bool
  | .error | .classDeclaration | .interfaceDeclaration | .enumDeclaration | .enumMembers |
    .enumConstant => false
  | _ => true

/-! ## Nodes -/

section Nodes

variable {t t' c : Tree} {cs : List Tree} {k : Kind}

theorem onlyEnums_of_kind (h : typeKind? t.kind = none) (herror : t.kind ≠ .error) : OnlyEnums t := by
  intro ns r hr
  rw [collect_eq, recordsOf_eq, h] at hr
  simp [herror] at hr

theorem onlyEnums_inert (h : t.kind.isInert = true) : OnlyEnums t := by
  apply onlyEnums_of_kind <;> cases hk : t.kind <;> simp_all [Kind.isInert, typeKind?]

theorem fitsBody_inert (h : t.kind.isInert = true) : FitsBody k t where
  constant _ hk := by simp [hk, Kind.isInert] at h
  members hk := by simp [hk, Kind.isInert] at h
  onlyEnums := onlyEnums_inert h

theorem Alike.onlyEnums (h : Alike t t') (ht : OnlyEnums t) : OnlyEnums t' := by
  intro ns r hr
  rw [h.collect] at hr
  exact ht ns r hr

/-- Each child of one of two nodes that are alike is alike to a child of the other. -/
theorem Alike.exists_child (h : Alike t t') (hc : c ∈ t'.children) : ∃ d ∈ t.children, Alike d c := by
  obtain ⟨i, hi, rfl⟩ := List.mem_iff_getElem.mp hc
  have hlen := h.children.length_eq
  exact ⟨t.children[i], List.getElem_mem _, h.children.get (by omega) hi⟩

theorem Alike.fitsBody (h : Alike t t') (ht : FitsBody k t) : FitsBody k t' where
  constant hk := h.kind ▸ ht.constant hk
  members hk := by
    obtain ⟨henum, hchildren⟩ := ht.members (h.kind ▸ hk)
    refine ⟨henum, fun c hc => ?_⟩
    obtain ⟨d, hd, halike⟩ := h.exists_child hc
    exact halike.onlyEnums (hchildren d hd)
  onlyEnums := h.onlyEnums ht.onlyEnums

/-- The children of a node that was made are its parts, perhaps without their comments, and comments. -/
theorem mem_spread (h : c ∈ Tree.spread cs) :
    (∃ t ∈ cs, Alike t c) ∨ ∃ comment, c = .leaf none .comment comment false := by
  cases cs with
  | nil => cases h
  | cons first rest =>
    rcases List.mem_cons.mp h with rfl | h
    · exact .inl ⟨c, List.mem_cons_self, .inl rfl⟩
    · obtain ⟨t, ht, h⟩ := List.mem_flatMap.mp h
      rcases List.mem_append.mp h with h | h
      · obtain ⟨comment, -, rfl⟩ := List.mem_map.mp h
        exact .inr ⟨_, rfl⟩
      · exact .inl ⟨t, List.mem_cons_of_mem _ ht, .inr (List.mem_singleton.mp h)⟩

theorem onlyEnums_spread (hcs : ∀ t ∈ cs, OnlyEnums t) (h : c ∈ Tree.spread cs) : OnlyEnums c := by
  rcases mem_spread h with ⟨t, ht, halike⟩ | ⟨comment, rfl⟩
  · exact halike.onlyEnums (hcs t ht)
  · exact onlyEnums_inert rfl

theorem fitsBody_spread (hcs : ∀ t ∈ cs, FitsBody k t) (h : c ∈ Tree.spread cs) : FitsBody k c := by
  rcases mem_spread h with ⟨t, ht, halike⟩ | ⟨comment, rfl⟩
  · exact halike.fitsBody (hcs t ht)
  · exact fitsBody_inert rfl

theorem onlyEnums_error (h : ∀ t ∈ cs, OnlyEnums t) : OnlyEnums (.make .error cs) := by
  intro ns r hr
  rw [collect_eq] at hr
  obtain ⟨c, hc, hr⟩ := List.mem_flatMap.mp hr
  exact onlyEnums_spread h hc ns r hr

/-- An error is looked into in a unit and ends there; in a body nothing is. -/
theorem fitsBody_error (h : ∀ t ∈ cs, OnlyEnums t) : FitsBody k (.make .error cs) where
  constant _ hk := by cases hk
  members hk := by cases hk
  onlyEnums := onlyEnums_error h

theorem FitsBody.mono (h : FitsBody .classDeclaration t) : FitsBody k t where
  constant _ := h.constant (by decide)
  members hk := absurd (h.members hk).1 (by decide)
  onlyEnums := h.onlyEnums

theorem fitsBody_errorOf (ts : List Token) : ∀ t ∈ Declaration.errorOf ts, FitsBody k t := by
  intro t ht
  unfold Declaration.errorOf at ht
  split at ht
  · cases ht
  · rw [List.mem_singleton.mp ht]
    refine fitsBody_error fun t ht => ?_
    obtain ⟨token, -, rfl⟩ := List.mem_map.mp ht
    exact onlyEnums_inert rfl

end Nodes

/-! ## Declarations of types -/

section Types

variable {head parts : List Tree} {k : Kind}

/-- What a declaration holds in its body. -/
theorem fitsBody_bodyNodes {m : Tree} (hhead : ∀ c ∈ head, c.part? ≠ some .body)
    (hparts : ∀ c ∈ parts, FitsBody k c)
    (h : m ∈ bodyNodes (.make k (head ++ [(Tree.make .typeBody parts).as .body]))) :
    OnlyEnums m ∧ (k ≠ .enumDeclaration → m.kind ≠ .enumConstant) := by
  unfold bodyNodes at h
  cases hbody : Tree.child? (.make k (head ++ [(Tree.make .typeBody parts).as .body])) .body with
  | none =>
    rw [hbody] at h
    cases h
  | some b =>
    rw [hbody] at h
    have hpart : b.part? = some .body := by simpa using List.find?_some hbody
    have halike : Alike ((Tree.make .typeBody parts).as .body) b := by
      rcases mem_spread (List.mem_of_find?_eq_some hbody) with ⟨c, hc, halike⟩ | ⟨comment, rfl⟩
      · rcases List.mem_append.mp hc with hc | hc
        · exact absurd (halike.part?.symm.trans hpart) (hhead c hc)
        · exact List.mem_singleton.mp hc ▸ halike
      · cases hpart
    obtain ⟨c, hc, hm⟩ := List.mem_flatMap.mp h
    obtain ⟨d, hd, hdc⟩ := halike.exists_child hc
    have hfits : FitsBody k c := hdc.fitsBody (fitsBody_spread hparts hd)
    split at hm
    · next hmembers =>
      obtain ⟨henum, hchildren⟩ := hfits.members (by simpa using hmembers)
      exact ⟨hchildren m hm, fun hk => absurd henum hk⟩
    · rw [List.mem_singleton.mp hm]
      exact ⟨hfits.onlyEnums, hfits.constant⟩

theorem recordsOf_subset_collect {ns : String} {t : Tree} {r : TypeRecord} (h : r ∈ recordsOf ns t) :
    r ∈ collect ns t := by
  rw [collect_eq]
  split
  · next herror =>
    rw [recordsOf_eq, show t.kind = .error by simpa using herror] at h
    cases h
  · exact h

theorem onlyEnums_declaration (hhead : ∀ c ∈ head, c.part? ≠ some .body)
    (hparts : ∀ c ∈ parts, FitsBody k c) (hk : k ≠ .error) :
    OnlyEnums (.make k (head ++ [(Tree.make .typeBody parts).as .body])) := by
  intro ns r hr hliterals
  set t := Tree.make k (head ++ [(Tree.make .typeBody parts).as .body]) with ht
  have hkind : t.kind = k := rfl
  rw [collect_eq, hkind, if_neg (by simpa using hk), recordsOf_eq, hkind] at hr
  cases htype : typeKind? k with
  | none => simp [htype] at hr
  | some kind =>
    cases hname : partText? t .name with
    | none => simp [htype, hname] at hr
    | some name =>
      simp only [htype, hname] at hr
      split at hr
      · cases hr
      · rcases List.mem_cons.mp hr with rfl | hr
        · by_contra hother
          have hclass : k ≠ .enumDeclaration := by
            rintro rfl
            exact hother (Option.some.inj htype).symm
          refine hliterals (List.filterMap_eq_nil_iff.mpr fun m hm => ?_)
          rw [if_neg (by simpa using (fitsBody_bodyNodes hhead hparts hm).2 hclass)]
        · obtain ⟨m, hm, hr⟩ := List.mem_flatMap.mp hr
          exact (fitsBody_bodyNodes hhead hparts hm).1 ns r (recordsOf_subset_collect hr) hliterals

end Types

/-! ## Readers -/

namespace Declaration

/-- A declaration that is read fits the body of a class, and nothing that is left of one hides literals
elsewhere than in enumerations. -/
def Reading.Fits : Reading → Prop
  | .read tree _ => FitsBody .classDeclaration tree
  | .failed _ _ => True
  | .cut parts => ∀ p ∈ parts, OnlyEnums p

/-- The parts of a body fit it. -/
def Body.Fits (k : Kind) : Body → Prop
  | .closed parts _ | .ended parts => ∀ p ∈ parts, FitsBody k p
  | .cut parts => ∀ p ∈ parts, OnlyEnums p

section Parts

variable {head parts : List Tree} {ts rest : List Token}

theorem mem_modifiers {mods : List Tree} (h : modifiers ts = (mods, rest)) :
    ∀ t ∈ mods, t.kind = .modifiers ∧ t.part? = none := by
  intro t ht
  unfold modifiers at h
  dsimp only at h
  cases h
  split at ht
  · cases ht
  · rw [List.mem_singleton.mp ht]
    exact ⟨rfl, rfl⟩

theorem onlyEnums_modifiers {mods : List Tree} (h : modifiers ts = (mods, rest)) :
    ∀ t ∈ mods, OnlyEnums t := fun t ht =>
  onlyEnums_inert (by rw [(mem_modifiers h t ht).1]; rfl)

theorem onlyEnums_append {others : List Tree} (h : ∀ t ∈ head, OnlyEnums t)
    (hothers : ∀ t ∈ others, t.kind.isInert = true) : ∀ t ∈ head ++ others, OnlyEnums t :=
  List.forall_mem_append.mpr ⟨h, fun t ht => onlyEnums_inert (hothers t ht)⟩

theorem kind_declarator {d : Tree} (h : declarator ts = .ok (d, rest)) : d.kind = .declarator := by
  unfold declarator at h
  repeat' split at h
  all_goals first | cases h; rfl | cases h

theorem inert_throwsClause {exceptions : List Tree} (h : throwsClause ts = some (exceptions, rest)) :
    ∀ t ∈ exceptions, t.kind.isInert = true := by
  unfold throwsClause at h
  repeat' split at h
  · obtain ⟨⟨types, after⟩, -, heq⟩ := Option.map_eq_some_iff.mp h
    cases heq
    exact List.forall_mem_singleton.mpr rfl
  all_goals cases h; exact List.forall_mem_nil _

theorem kind_parameters {ps : Tree} (h : parameters ts = some (ps, rest)) :
    ps.kind = .parameterList := by
  unfold parameters at h
  repeat' split at h
  · cases h; rfl
  · obtain ⟨⟨parts, after⟩, -, heq⟩ := Option.map_eq_some_iff.mp h
    cases heq; rfl
  all_goals cases h

theorem kind_typeParameters {tree : Tree} (h : typeParameters ts = some (tree, rest)) :
    tree.kind = .phrase ∧ tree.part? = none := by
  unfold typeParameters at h
  obtain ⟨⟨items, behind⟩, -, h⟩ := Option.bind_eq_some_iff.mp h
  obtain ⟨after, -, h⟩ := Option.bind_eq_some_iff.mp h
  cases h
  exact ⟨rfl, rfl⟩

/-! ### Members without members -/

theorem fits_withBlock (h : ∀ t ∈ parts, OnlyEnums t) : (withBlock parts ts).Fits := by
  unfold withBlock
  split
  · exact fitsBody_inert rfl
  · exact h

theorem fits_methodEnd (h : ∀ t ∈ head, OnlyEnums t) : (methodEnd head ts).Fits := by
  unfold methodEnd
  dsimp only
  split
  · trivial
  · next exceptions rest hthrows =>
    have hbrackets : ∀ t ∈ (if (Phrase.afterDimensions ts).length < ts.length then
        [Tree.flat .phrase (before (Phrase.afterDimensions ts) ts)] else []), t.kind.isInert = true := by
      split
      · exact List.forall_mem_singleton.mpr rfl
      · exact List.forall_mem_nil _
    have hparts := onlyEnums_append (onlyEnums_append h hbrackets) (inert_throwsClause hthrows)
    generalize (if (Phrase.afterDimensions ts).length < ts.length then
      [Tree.flat .phrase (before (Phrase.afterDimensions ts) ts)] else []) = brackets at hparts ⊢
    repeat' split
    · exact hparts
    · exact fitsBody_inert rfl
    · exact fitsBody_inert rfl
    · exact hparts
    · trivial

theorem fits_fieldEnd (fuel : Nat) (h : ∀ t ∈ head, OnlyEnums t) : (fieldEnd fuel head ts).Fits := by
  induction fuel generalizing head ts with
  | zero => trivial
  | succ fuel ih =>
    rw [fieldEnd]
    split
    · trivial
    · next d rest hd =>
      have hparts : ∀ t ∈ head ++ [d.as .declarator], OnlyEnums t := onlyEnums_append h
        (List.forall_mem_singleton.mpr (by rw [Tree.kind_as, kind_declarator hd]; rfl))
      dsimp only
      repeat' split
      · exact hparts
      · exact ih (onlyEnums_append hparts (List.forall_mem_singleton.mpr rfl))
      · exact fitsBody_inert rfl
      · trivial

theorem fits_constructor (h : ∀ t ∈ head, OnlyEnums t) : (constructor head ts).Fits := by
  unfold Declaration.constructor
  split
  · trivial
  · next ps rest hps =>
    split
    · trivial
    · next exceptions rest hthrows =>
      have hname : ∀ t ∈ (ts.take 1).map Tree.ident ++ [ps] ++ exceptions, t.kind.isInert = true := by
        simp only [List.forall_mem_append, List.forall_mem_map]
        exact ⟨⟨fun _ _ => rfl, List.forall_mem_singleton.mpr (by rw [kind_parameters hps]; rfl)⟩,
          inert_throwsClause hthrows⟩
      have hparts := onlyEnums_append h hname
      simp only [← List.append_assoc] at hparts
      dsimp only
      repeat' split
      · exact hparts
      · exact fits_withBlock hparts
      · trivial

theorem fits_typedMember (isGeneric : Bool) (h : ∀ t ∈ head, OnlyEnums t) :
    (typedMember head isGeneric ts).Fits := by
  unfold typedMember
  split
  · trivial
  · next rest htype =>
    have hparts : ∀ t ∈ head ++ [(Tree.flat .phrase (before rest ts)).as .type], OnlyEnums t :=
      onlyEnums_append h (List.forall_mem_singleton.mpr rfl)
    dsimp only
    repeat' split
    · exact hparts
    · trivial
    · trivial
    · next ps after hps =>
      refine fits_methodEnd (onlyEnums_append hparts fun t ht => ?_)
      rcases List.mem_pair.mp ht with rfl | rfl
      · rfl
      · rw [Tree.kind_as, kind_parameters hps]
        rfl
    · trivial
    · trivial
    · exact fits_fieldEnd _ hparts

theorem fits_plainMember (h : ∀ t ∈ head, OnlyEnums t) : (plainMember head ts).Fits := by
  unfold plainMember
  dsimp only
  split
  · trivial
  · next generic start hgeneric =>
    have hinert : ∀ t ∈ generic, t.kind.isInert = true := by
      split at hgeneric
      · obtain ⟨⟨tree, rest⟩, htree, heq⟩ := Option.map_eq_some_iff.mp hgeneric
        cases heq
        refine List.forall_mem_append.mpr ⟨List.forall_mem_singleton.mpr ?_, ?_⟩
        · rw [(kind_typeParameters htree).1]
          rfl
        · split
          · exact List.forall_mem_singleton.mpr rfl
          · exact List.forall_mem_nil _
      · cases hgeneric
        exact List.forall_mem_nil _
    have hhead := onlyEnums_append h hinert
    repeat' split
    · exact fits_constructor hhead
    · exact fits_withBlock (onlyEnums_append hhead (List.forall_mem_singleton.mpr rfl))
    · exact fits_typedMember _ hhead
    · exact fits_typedMember _ hhead

/-! ### Headers -/

/-- A reader of parts of which none is a body. -/
def Bodiless (reader : List Token → Option (List Tree × List Token)) : Prop :=
  ∀ ts parts rest, reader ts = some (parts, rest) → ∀ c ∈ parts, c.part? ≠ some .body

theorem bodiless_clause {word : String} {build : Token → List Token → Option (Tree × List Token)}
    (h : ∀ t ts tree rest, build t ts = some (tree, rest) → tree.part? ≠ some .body) :
    Bodiless (clause word build) := by
  intro ts parts rest hread
  unfold clause at hread
  repeat' split at hread
  · obtain ⟨⟨tree, after⟩, hbuild, heq⟩ := Option.map_eq_some_iff.mp hread
    cases heq
    exact List.forall_mem_singleton.mpr (h _ _ _ _ hbuild)
  all_goals cases hread; exact List.forall_mem_nil _

theorem bodiless_superclassClause : Bodiless superclassClause := by
  refine bodiless_clause fun t ts tree rest hbuild => ?_
  obtain ⟨after, -, heq⟩ := Option.map_eq_some_iff.mp hbuild
  cases heq
  rw [Tree.part?_as]
  decide

theorem bodiless_listClause (word : String) (k : Kind) : Bodiless (listClause word k) := by
  refine bodiless_clause fun t ts tree rest hbuild => ?_
  obtain ⟨⟨types, after⟩, -, heq⟩ := Option.map_eq_some_iff.mp hbuild
  cases heq
  exact Option.some_ne_none _ |>.symm

theorem bodiless_nameOf : Bodiless nameOf := by
  intro ts parts rest hread
  unfold nameOf at hread
  repeat' split at hread
  · cases hread
    exact List.forall_mem_singleton.mpr (by rw [Tree.part?_as]; decide)
  all_goals cases hread

theorem bodiless_typeParameterClause : Bodiless typeParameterClause := by
  intro ts parts rest hread
  unfold typeParameterClause at hread
  split at hread
  · obtain ⟨⟨tree, after⟩, htree, heq⟩ := Option.map_eq_some_iff.mp hread
    cases heq
    refine List.forall_mem_singleton.mpr ?_
    rw [(kind_typeParameters htree).2]
    exact Option.some_ne_none _ |>.symm
  · cases hread
    exact List.forall_mem_nil _

theorem bodiless_bodyStart : Bodiless bodyStart := by
  intro ts parts rest hread
  unfold bodyStart at hread
  split at hread
  · cases hread
    exact List.forall_mem_nil _
  · cases hread

theorem step_bodiless {h : Header} {reader : List Token → Option (List Tree × List Token)}
    (hreader : Bodiless reader) (hparts : ∀ c ∈ h.parts, c.part? ≠ some .body) :
    ∀ c ∈ (h.step reader).parts, c.part? ≠ some .body := by
  unfold Header.step
  split
  · exact hparts
  · split
    · next parts rest hread => exact List.forall_mem_append.mpr ⟨hparts, hreader _ _ _ hread⟩
    · exact hparts

/-- A header holds no body. -/
theorem header_bodiless (k : Kind) (ts : List Token) : ∀ c ∈ (header k ts).parts, c.part? ≠ some .body := by
  have hfold : ∀ (readers : List (List Token → Option (List Tree × List Token))) (h : Header),
      (∀ r ∈ readers, Bodiless r) → (∀ c ∈ h.parts, c.part? ≠ some .body) →
      ∀ c ∈ (readers.foldl Header.step h).parts, c.part? ≠ some .body := by
    intro readers
    induction readers with
    | nil => exact fun h _ hparts => hparts
    | cons r readers ih =>
      intro h hreaders hparts
      obtain ⟨hr, hreaders⟩ := List.forall_mem_cons.mp hreaders
      exact ih _ hreaders (step_bodiless hr hparts)
  refine step_bodiless bodiless_bodyStart (hfold _ _ ?_ ?_)
  · cases k <;> simp [bodiless_typeParameterClause, bodiless_superclassClause, bodiless_listClause]
  · exact step_bodiless bodiless_nameOf (List.forall_mem_nil _)

/-! ### Bodies -/

/-- The parts of an enumeration before its members fit its body. -/
def Constants.Fits : Constants → Prop
  | .closed parts _ | .members parts _ _ | .ended parts | .cut parts =>
    ∀ t ∈ parts, FitsBody .enumDeclaration t

theorem fits_constants (fuel : Nat) {done : List Tree} (h : ∀ t ∈ done, FitsBody .enumDeclaration t) :
    (constants fuel done ts).Fits := by
  have hreverse : ∀ {done : List Tree}, (∀ t ∈ done, FitsBody .enumDeclaration t) →
      ∀ t ∈ done.reverse, FitsBody .enumDeclaration t := fun h t ht => h t (List.mem_reverse.mp ht)
  induction fuel generalizing done ts with
  | zero => exact hreverse h
  | succ fuel ih =>
    rw [constants]
    rcases hmodifiers : modifiers ts with ⟨mods, rest⟩
    have hmods : ∀ t ∈ mods.reverse ++ done, FitsBody .enumDeclaration t := by
      refine List.forall_mem_append.mpr ⟨hreverse fun t ht => fitsBody_inert ?_, h⟩
      rw [(mem_modifiers hmodifiers t ht).1]
      rfl
    have hconstant : ∀ cs, FitsBody .enumDeclaration (.make .enumConstant cs) := fun cs => {
      constant := fun hk => absurd rfl hk
      members := fun hk => by cases hk
      onlyEnums := onlyEnums_of_kind rfl Kind.noConfusion }
    have hword : ∀ t, FitsBody .enumDeclaration (.word t) := fun t => fitsBody_inert rfl
    dsimp only
    split
    · split
      · exact hreverse h
      · exact hreverse h
    · split
      · split
        · exact hreverse h
        · refine ih (List.forall_mem_cons.mpr ⟨?_, h⟩)
          split
          · exact hconstant _
          · exact fitsBody_error (List.forall_mem_singleton.mpr (hconstant _).onlyEnums)
      · repeat' split
        · exact hreverse (List.forall_mem_cons.mpr ⟨hword _, hmods⟩)
        · exact hreverse hmods
        · exact ih (List.forall_mem_cons.mpr ⟨hword _, hmods⟩)
        · exact ih (List.forall_mem_cons.mpr ⟨fitsBody_error (List.forall_mem_singleton.mpr
            (hword _).onlyEnums), hmods⟩)

/-- What the readers of declarations, bodies and members make fits. -/
structure Readers.Fit (fuel : Nat) : Prop where
  typeDeclaration : ∀ mods ts, (∀ t ∈ mods, t.kind = .modifiers ∧ t.part? = none) →
    (typeDeclaration fuel mods ts).Fits
  body : ∀ k ts, (body fuel k ts).Fits k
  members : ∀ done ts, (∀ t ∈ done, FitsBody .classDeclaration t) →
    (members fuel done ts).Fits .classDeclaration
  member : ∀ ts, (member fuel ts).Fits

theorem declarationKind_cases (t : Token) : declarationKind t = .classDeclaration ∨
    declarationKind t = .interfaceDeclaration ∨ declarationKind t = .enumDeclaration := by
  unfold declarationKind
  repeat' split
  · exact .inl rfl
  · exact .inr (.inl rfl)
  · exact .inr (.inr rfl)

theorem fits_formed {head parts : List Tree} {opening : List Token} {k : Kind}
    (hk : k = .classDeclaration ∨ k = .interfaceDeclaration ∨ k = .enumDeclaration)
    (hhead : ∀ c ∈ head, c.part? ≠ some .body) (hparts : ∀ c ∈ parts, FitsBody k c) :
    (Reading.read (.make k (head ++
      [(Tree.make .typeBody (opening.map Tree.word ++ parts)).as .body])) rest).Fits where
  constant _ heq := by rcases hk with rfl | rfl | rfl <;> cases heq
  members heq := by rcases hk with rfl | rfl | rfl <;> cases heq
  onlyEnums := by
    refine onlyEnums_declaration hhead (List.forall_mem_append.mpr ⟨?_, hparts⟩) ?_
    · exact List.forall_mem_map.mpr fun t _ => fitsBody_inert rfl
    · rcases hk with rfl | rfl | rfl <;> exact Kind.noConfusion

theorem fits_typeDeclaration {fuel : Nat} {mods : List Tree} (h : Readers.Fit fuel)
    (hmods : ∀ t ∈ mods, t.kind = .modifiers ∧ t.part? = none) :
    (typeDeclaration (fuel + 1) mods ts).Fits := by
  cases ts with
  | nil => trivial
  | cons keyword ts =>
    rw [typeDeclaration]
    have hk := declarationKind_cases keyword
    generalize declarationKind keyword = k at hk ⊢
    dsimp only
    split
    · split
      · exact List.forall_mem_nil _
      · trivial
    · next broken start hstart =>
      have hbroken : ∀ t ∈ broken, t.part? = none := by
        split at hstart
        · cases hstart
          exact List.forall_mem_nil _
        · obtain ⟨skipped, -, heq⟩ := Option.map_eq_some_iff.mp hstart
          cases heq
          split <;> exact List.forall_mem_singleton.mpr rfl
      have hhead : ∀ t ∈ mods ++ [Tree.word keyword] ++ (header k ts).parts ++ broken,
          t.part? ≠ some .body := by
        have hnone : ∀ {t : Tree}, t.part? = none → t.part? ≠ some .body :=
          fun ht => by rw [ht]; exact Option.some_ne_none _ |>.symm
        simp only [List.forall_mem_append]
        exact ⟨⟨⟨fun t ht => hnone (hmods t ht).2, List.forall_mem_singleton.mpr (hnone rfl)⟩,
          header_bodiless k ts⟩, fun t ht => hnone (hbroken t ht)⟩
      have hbody := h.body k (start.drop 1)
      split
      · next parts rest hread =>
        rw [hread] at hbody
        exact fits_formed hk hhead hbody
      · next parts hread =>
        rw [hread] at hbody
        exact fits_formed hk hhead
          (List.forall_mem_append.mpr ⟨hbody, List.forall_mem_singleton.mpr (fitsBody_inert rfl)⟩)
      · next parts hread =>
        rw [hread] at hbody
        exact hbody

theorem fits_body {fuel : Nat} {k : Kind} (h : Readers.Fit fuel) : (body (fuel + 1) k ts).Fits k := by
  rw [body]
  split
  · next henum =>
    obtain rfl : k = .enumDeclaration := by simpa using henum
    have hconstants : (constants (ts.length + 1) [] ts).Fits := fits_constants _ (List.forall_mem_nil _)
    split
    · next parts rest hread => rw [hread] at hconstants; exact hconstants
    · next parts hread => rw [hread] at hconstants; exact hconstants
    · next parts hread =>
      rw [hread] at hconstants
      exact fun t ht => (hconstants t ht).onlyEnums
    · next parts semicolon rest hread =>
      rw [hread] at hconstants
      have hinner := h.members [] rest (List.forall_mem_nil _)
      have hmembers : ∀ inner : List Tree, (∀ t ∈ inner, FitsBody .classDeclaration t) →
          ∀ t ∈ parts ++ [Tree.make .enumMembers (.word semicolon :: inner)],
            FitsBody .enumDeclaration t := by
        intro inner hinner
        refine List.forall_mem_append.mpr ⟨hconstants, List.forall_mem_singleton.mpr ?_⟩
        exact {
          constant := fun hk => absurd rfl hk
          members := fun _ => ⟨rfl, fun c hc => onlyEnums_spread
            (List.forall_mem_cons.mpr ⟨onlyEnums_inert rfl, fun t ht => (hinner t ht).onlyEnums⟩) hc⟩
          onlyEnums := onlyEnums_of_kind rfl Kind.noConfusion }
      dsimp only
      split
      · next inner rest hread =>
        rw [hread] at hinner
        refine List.forall_mem_append.mpr ⟨hmembers _ fun t ht => hinner t (List.dropLast_subset _ ht),
          fun t ht => ?_⟩
        exact (hinner t (List.mem_of_getLast? (Option.mem_toList.mp ht))).mono
      · next inner hread =>
        rw [hread] at hinner
        exact hmembers _ hinner
      · next inner hread =>
        rw [hread] at hinner
        exact List.forall_mem_append.mpr ⟨fun t ht => (hconstants t ht).onlyEnums, hinner⟩
  · have hmembers := h.members [] ts (List.forall_mem_nil _)
    revert hmembers
    rcases members fuel [] ts with ⟨parts, rest⟩ | parts | parts <;> intro hmembers
    · exact fun t ht => (hmembers t ht).mono
    · exact fun t ht => (hmembers t ht).mono
    · exact hmembers

theorem fits_members {fuel : Nat} {done : List Tree} (h : Readers.Fit fuel)
    (hdone : ∀ t ∈ done, FitsBody .classDeclaration t) :
    (members (fuel + 1) done ts).Fits .classDeclaration := by
  have hreverse : ∀ t ∈ done.reverse, FitsBody .classDeclaration t :=
    fun t ht => hdone t (List.mem_reverse.mp ht)
  cases ts with
  | nil => exact hreverse
  | cons t ts =>
    rw [members]
    split
    · exact fun c hc => (List.forall_mem_cons.mpr ⟨fitsBody_inert rfl, hdone⟩) c (List.mem_reverse.mp hc)
    · have hmember := h.member (t :: ts)
      split
      · next tree rest hread =>
        rw [hread] at hmember
        exact h.members _ _ (List.forall_mem_cons.mpr ⟨hmember, hdone⟩)
      · next parts hcut =>
        rw [hcut] at hmember
        exact List.forall_mem_append.mpr ⟨fun t ht => (hreverse t ht).onlyEnums, hmember⟩
      · split
        · exact fun t ht => (hreverse t ht).onlyEnums
        · refine h.members _ _ (List.forall_mem_append.mpr ⟨fun t ht => ?_, hdone⟩)
          exact fitsBody_errorOf _ t (List.mem_reverse.mp ht)

theorem fits_member {fuel : Nat} (h : Readers.Fit fuel) : (member (fuel + 1) ts).Fits := by
  rw [member]
  rcases hmodifiers : modifiers ts with ⟨mods, rest⟩
  have hmods := mem_modifiers hmodifiers
  have honly := onlyEnums_modifiers hmodifiers
  dsimp only
  repeat' split
  · exact honly
  · exact fitsBody_inert rfl
  · exact fits_withBlock honly
  · exact h.typeDeclaration _ _ hmods
  · exact fits_withBlock (List.forall_mem_append.mpr ⟨honly, fun t ht =>
      (fitsBody_errorOf (k := .classDeclaration) _ t ht).onlyEnums⟩)
  · trivial
  · exact fits_plainMember honly

theorem readers_fit (fuel : Nat) : Readers.Fit fuel := by
  induction fuel with
  | zero =>
    constructor
    · exact fun _ _ _ => trivial
    · exact fun _ _ => List.forall_mem_nil _
    · exact fun done ts h t ht => (h t (List.mem_reverse.mp ht)).onlyEnums
    · exact fun _ => trivial
  | succ fuel ih =>
    constructor
    · exact fun mods ts hmods => fits_typeDeclaration ih hmods
    · exact fun k ts => fits_body ih
    · exact fun done ts hdone => fits_members ih hdone
    · exact fun ts => fits_member ih

end Parts

/-! ### Units -/

theorem onlyEnums_package {ts rest : List Token} {tree : Tree} (h : package? ts = some (tree, rest)) :
    OnlyEnums tree := by
  unfold package? at h
  obtain ⟨behind, -, h⟩ := Option.bind_eq_some_iff.mp h
  obtain ⟨after, -, h⟩ := Option.bind_eq_some_iff.mp h
  cases h
  exact onlyEnums_inert rfl

theorem onlyEnums_unitParts (fuel : Nat) (ts : List Token) : ∀ t ∈ unitParts fuel ts, OnlyEnums t := by
  induction fuel generalizing ts with
  | zero => exact List.forall_mem_nil _
  | succ fuel ih =>
    cases ts with
    | nil => exact List.forall_mem_nil _
    | cons t ts =>
      have hpassed : ∀ skipped after, ∀ t ∈ errorOf skipped ++ unitParts fuel after, OnlyEnums t :=
        fun skipped after => List.forall_mem_append.mpr
          ⟨fun t ht => (fitsBody_errorOf (k := .classDeclaration) _ t ht).onlyEnums, ih after⟩
      rw [unitParts]
      dsimp only
      split
      · next tree rest hpackage => exact List.forall_mem_cons.mpr ⟨onlyEnums_package hpackage, ih _⟩
      · rcases hmodifiers : modifiers (t :: ts) with ⟨mods, rest⟩
        dsimp only
        split
        · have htype := (readers_fit (8 * rest.length + 8)).typeDeclaration mods rest
            (mem_modifiers hmodifiers)
          split
          · next tree after hread =>
            rw [hread] at htype
            exact List.forall_mem_cons.mpr ⟨htype.onlyEnums, ih _⟩
          · next parts hread =>
            rw [hread] at htype
            exact List.forall_mem_singleton.mpr (onlyEnums_error htype)
          · split
            · exact hpassed _ _
            · exact hpassed _ _
        · split
          · split
            · exact List.forall_mem_cons.mpr ⟨onlyEnums_inert rfl, ih _⟩
            · exact hpassed _ _
          · exact hpassed _ _

end Declaration

/-- Of the records of a unit only those of enumerations have literals. -/
theorem kind_of_literals {ts : List Token} {hint : String} {r : TypeRecord}
    (hr : r ∈ ofTree (Declaration.unit ts) hint) (h : r.literals ≠ []) : r.kind = .enumeration := by
  obtain ⟨c, hc, hr⟩ := List.mem_flatMap.mp hr
  exact onlyEnums_spread (Declaration.onlyEnums_unitParts _ _) hc _ r hr h

end ClassAtlas.Java
