import ClassAtlas.Proofs.ConstantPlaces
import ClassAtlas.Proofs.NormalizedTypes
import ClassAtlas.Proofs.VisibleDeclarations

/-! # Sound records

What holds of all records of a tree, well formed or not: one namespace, nothing that a type of their kind
cannot have, and canonical texts for all types. Of the grammar this asks one thing only, that constants stand
in the bodies of enumerations. -/

namespace ClassAtlas.Java

open Extract

/-- The texts of the types that a record names, those of parameters apart. -/
def TypeRecord.typeTexts (r : TypeRecord) : List String :=
  r.superclass.toList ++ r.interfaces ++ r.fields.map (·.typeName) ++ r.operations.filterMap (·.returnType)

/-- A record has only what a type of its kind can have. -/
structure TypeRecord.Sound (r : TypeRecord) : Prop where
  superclass : r.superclass.isSome → r.kind = .«class»
  isAbstract : r.isAbstract = true → r.kind = .«class»
  literals : r.literals ≠ [] → r.kind = .enumeration
  constants : r.kind = .interface → ∀ f ∈ r.fields, f.isStatic = true ∧ f.isFinal = true
  access : r.kind = .interface →
    (∀ f ∈ r.fields, f.visibility ≠ .package) ∧ ∀ op ∈ r.operations, op.visibility ≠ .package
  operations : ∀ op ∈ r.operations, op.name ≠ r.name ∧ op.returnType ≠ some "void"

/-- The records of one tree: they have one namespace, the hint or a name that the tree gives; each is sound;
and each type text is canonical, and its own canonical text unless a space stands before three points in
it. -/
structure SoundRecords (hint : String) (records : List TypeRecord) : Prop where
  namespaceName : ∃ namespaceName, (namespaceName = hint ∨ namespaceName ≠ "" ∧ ' ' ∉ namespaceName.toList) ∧
    ∀ r ∈ records, r.namespaceName = namespaceName
  sound : ∀ r ∈ records, r.Sound
  typeTexts : ∀ r ∈ records, ∀ s ∈ r.typeTexts, (∃ text, s = TypeText.normalize text) ∧
    (TypeText.normalize s = s ↔ ¬ [' ', '.', '.', '.'] <:+: s.toList)

/-- No declaration that is seen has constants, unless it is an enumeration. -/
def ConstantsInEnumerations (unit : Tree) : Prop :=
  ∀ p t q m, Visible unit p t → LiteralOf t q m → t.kind = .enumDeclaration

section Members

variable {owner : ClassifierKind} {m : Tree} {members : List Tree} {typeName : String}

theorem visibility_interface (words : List String) : visibility words true ≠ .package := by
  simp only [visibility, if_true]
  repeat' split
  all_goals decide

/-- What a field is made of. -/
theorem mem_fields {f : Field} (h : f ∈ fields owner m) :
    (∃ text, f.typeName = TypeText.normalize text) ∧ (∃ words, f.visibility = visibility words (owner == .interface)) ∧
      (owner = .interface → f.isStatic = true ∧ f.isFinal = true) := by
  unfold fields at h
  split at h
  · cases h
  · split at h
    · cases h
    · next type _ =>
      obtain ⟨d, -, hf⟩ := List.mem_filterMap.mp h
      obtain ⟨name, -, rfl⟩ := Option.map_eq_some_iff.mp hf
      refine ⟨?_, ⟨_, rfl⟩, ?_⟩
      · unfold declaredType
        split
        · exact ⟨_, rfl⟩
        · exact ⟨_, rfl⟩
      · rintro rfl
        exact ⟨rfl, rfl⟩

theorem mem_memberFields {f : Field} (h : f ∈ memberFields owner members) : ∃ m, f ∈ fields owner m := by
  obtain ⟨m, -, hf⟩ := List.mem_flatMap.mp h
  split at hf
  · exact ⟨m, hf⟩
  · cases hf

/-- What an operation is made of. -/
theorem operation?_returns {op : Operation} (h : operation? owner m = some op) :
    (∃ words, op.visibility = visibility words (owner == .interface)) ∧
      ∀ t ∈ op.returnType, t ≠ "void" ∧ ∃ text, t = TypeText.normalize text := by
  rw [operation?] at h
  split at h
  · cases h
  · simp only [Option.bind_eq_bind, Option.bind_eq_some_iff] at h
    obtain ⟨name, -, type, -, params, -, hop⟩ := h
    cases hop
    refine ⟨⟨_, rfl⟩, fun t ht => ?_⟩
    dsimp only at ht
    split at ht
    · exact absurd ht (Option.not_mem_none t)
    · next hvoid =>
      obtain rfl := Option.mem_some_iff.mp ht
      exact ⟨by simpa using hvoid, _, rfl⟩

theorem mem_memberOperations {op : Operation} (h : op ∈ memberOperations owner typeName members) :
    op.name ≠ typeName ∧ ∃ m, operation? owner m = some op := by
  obtain ⟨h, hne⟩ := List.mem_filter.mp h
  obtain ⟨m, -, hop⟩ := List.mem_filterMap.mp h
  split at hop
  · exact ⟨by simpa using hne, m, hop⟩
  · cases hop

end Members

section Records

variable {t : Tree} {r : TypeRecord} {namespaceName : String}

/-- Each record is that of some declaration. -/
theorem exists_record {t : Tree} (h : r ∈ recordsOf namespaceName t) :
    ∃ kind name d, r = record kind name namespaceName d := by
  rw [recordsOf_eq] at h
  split at h
  · split at h
    · cases h
    · rcases List.mem_cons.mp h with rfl | h
      · exact ⟨_, _, _, rfl⟩
      · obtain ⟨m, hm, h⟩ := List.mem_flatMap.mp h
        have := sizeOf_lt_of_mem_bodyNodes hm
        exact exists_record h
  · cases h
termination_by sizeOf t

theorem exists_record_of_collect {t : Tree} (h : r ∈ collect namespaceName t) :
    ∃ kind name d, r = record kind name namespaceName d := by
  rw [collect_eq] at h
  split at h
  · obtain ⟨c, hc, h⟩ := List.mem_flatMap.mp h
    have := sizeOf_lt_of_mem_children hc
    exact exists_record_of_collect h
  · exact exists_record h
termination_by sizeOf t

/-- All but the literals of a record, which depend on where constants stand. -/
theorem record_sound (kind : ClassifierKind) (name : String) (d : Tree)
    (hliterals : (record kind name namespaceName d).literals ≠ [] → kind = .enumeration) :
    (record kind name namespaceName d).Sound where
  superclass h := by
    by_contra hkind
    simp [record, show kind ≠ .«class» from hkind] at h
  isAbstract h := by simpa [record] using (Bool.and_eq_true_iff.mp h).1
  literals := hliterals
  constants hkind f hf := by
    obtain ⟨m, hm⟩ := mem_memberFields hf
    exact (mem_fields hm).2.2 hkind
  access hkind := by
    obtain rfl : kind = .interface := hkind
    constructor
    · intro f hf
      obtain ⟨m, hm⟩ := mem_memberFields hf
      obtain ⟨-, ⟨words, hwords⟩, -⟩ := mem_fields hm
      exact hwords ▸ visibility_interface words
    · intro op hop
      obtain ⟨-, m, hm⟩ := mem_memberOperations hop
      obtain ⟨⟨words, hwords⟩, -⟩ := operation?_returns hm
      exact hwords ▸ visibility_interface words
  operations op hop := by
    obtain ⟨hname, m, hm⟩ := mem_memberOperations hop
    exact ⟨hname, fun hvoid => ((operation?_returns hm).2 "void" hvoid).1 rfl⟩

theorem mem_listed {clause : Kind} {s : String} (h : s ∈ Extract.listed t clause) :
    ∃ text, s = TypeText.normalize text := by
  unfold Extract.listed at h
  split at h
  · obtain ⟨l, -, h⟩ := List.mem_flatMap.mp h
    obtain ⟨u, -, rfl⟩ := List.mem_map.mp h
    exact ⟨_, rfl⟩
  · cases h

theorem typeTexts_record (kind : ClassifierKind) (name : String) (d : Tree) :
    ∀ s ∈ (record kind name namespaceName d).typeTexts, ∃ text, s = TypeText.normalize text := by
  simp only [TypeRecord.typeTexts, List.forall_mem_append, List.forall_mem_map]
  refine ⟨⟨⟨fun s hs => ?_, fun s hs => mem_listed hs⟩, fun f hf => ?_⟩, fun s hs => ?_⟩
  · have hs := Option.mem_toList.mp hs
    simp only [record] at hs
    split at hs
    · obtain ⟨u, -, rfl⟩ := Option.map_eq_some_iff.mp hs
      exact ⟨_, rfl⟩
    · cases hs
  · obtain ⟨m, hm⟩ := mem_memberFields hf
    exact (mem_fields hm).1
  · obtain ⟨op, hop, hs⟩ := List.mem_filterMap.mp hs
    obtain ⟨-, m, hm⟩ := mem_memberOperations hop
    exact ((operation?_returns hm).2 s hs).2

/-- The namespace of the records of a tree. -/
def namespaceOf (unit : Tree) (hint : String) : String :=
  if (packageName unit).isEmpty then hint else packageName unit

theorem space_notMem_packageName (unit : Tree) : ' ' ∉ (packageName unit).toList := by
  unfold packageName
  dsimp only
  split
  · rw [String.toList_ofList]
    simp
  · exact List.not_mem_nil

theorem namespaceOf_cases (unit : Tree) (hint : String) : namespaceOf unit hint = hint ∨
    namespaceOf unit hint ≠ "" ∧ ' ' ∉ (namespaceOf unit hint).toList := by
  unfold namespaceOf
  split
  · exact .inl rfl
  · next hdeclared => exact .inr ⟨by simpa using hdeclared, space_notMem_packageName _⟩

end Records

/-! ## Constants -/

section Constants

variable {unit : Tree} {hint : String} {r : TypeRecord}

theorem typeKind?_eq_enumeration {k : Kind} : typeKind? k = some .enumeration ↔ k = .enumDeclaration := by
  cases k <;> simp [typeKind?]

/-- The literals of a record are constants of its declaration. -/
theorem kind_of_mem_ofTree (h : ConstantsInEnumerations unit) (hr : r ∈ ofTree unit hint)
    (hliterals : r.literals ≠ []) : r.kind = .enumeration := by
  obtain ⟨p, t, hvisible, hreports⟩ := (enumerates_collect _ unit).exists_place hr
  obtain ⟨text, hmem⟩ := List.exists_mem_of_ne_nil _ hliterals
  obtain ⟨q, m, hliteral, -⟩ := hreports.literals.exists_place hmem
  have hkind := hreports.kind
  rw [typeKind?_eq_enumeration.mpr (h p t q m hvisible hliteral)] at hkind
  exact (Option.some.inj hkind).symm

/-- The trees that are read from texts are of this kind. -/
theorem constantsInEnumerations_unit (ts : List Token) : ConstantsInEnumerations (Declaration.unit ts) := by
  intro p t q m hvisible hliteral
  obtain ⟨r, hr, hreports⟩ := (enumerates_collect (namespaceOf _ "") _).exists_told hvisible
  obtain ⟨text, hmem, -⟩ := hreports.literals.exists_told hliteral
  have hkind := hreports.kind
  rwa [kind_of_literals hr (List.ne_nil_of_mem hmem), typeKind?_eq_enumeration] at hkind

theorem ofTree_sound (h : ConstantsInEnumerations unit) : SoundRecords hint (ofTree unit hint) := by
  have hrecord : ∀ r ∈ ofTree unit hint, ∃ kind name d, r = record kind name (namespaceOf unit hint) d := by
    intro r hr
    obtain ⟨c, -, hr⟩ := List.mem_flatMap.mp hr
    exact exists_record_of_collect hr
  refine ⟨⟨namespaceOf unit hint, namespaceOf_cases unit hint, fun r hr => ?_⟩, fun r hr => ?_,
    fun r hr s hs => ?_⟩
  · obtain ⟨kind, name, d, rfl⟩ := hrecord r hr
    rfl
  · have hliterals := kind_of_mem_ofTree h hr
    obtain ⟨kind, name, d, rfl⟩ := hrecord r hr
    exact record_sound kind name d hliterals
  · obtain ⟨kind, name, d, rfl⟩ := hrecord r hr
    obtain ⟨text, rfl⟩ := typeTexts_record kind name d s hs
    exact ⟨⟨text, rfl⟩, TypeText.normalize_normalize_iff text⟩

end Constants

/-- The records of every tree with constants in enumerations alone are sound, whatever else is wrong with it;
so are those of every text. -/
theorem extract_sound (hint : String) :
    (∀ unit, ConstantsInEnumerations unit → SoundRecords hint (ofTree unit hint)) ∧
      ∀ source, SoundRecords hint (extract source hint) :=
  ⟨fun _ h => ofTree_sound h, fun _ => ofTree_sound (constantsInEnumerations_unit _)⟩

end ClassAtlas.Java
