import ClassAtlas.Inference.Report
import ClassAtlas.Proofs.Reachable

/-! # Inference finds exactly the edges that are called for

What a classifier calls for can be said without any traversal: a supertype it declares, a name in the
type of a field, a name in a signature, each as far as it means a classifier. The list that inference
makes holds these edges, each once and none from a classifier to itself, in the order in which they are
first called for. The traversal tells edges apart by ids; in a reachable diagram that is the same as
telling the classifiers themselves apart. -/

namespace ClassAtlas.Inference

/-! ## What is called for -/

/-- The kind of an edge to a listed supertype. -/
def listedKind : ClassifierKind → RelationshipKind
  | .interface => .inheritance
  | .class | .enumeration => .implementation

/-- The kind of an edge to a name in the type of a field. -/
def fieldKind (isFinal : Bool) : RelationshipKind := if isFinal then .composition else .association

/-- A classifier calls for an edge of a kind to another one. -/
inductive Calls (s : Scope) (withSupertypes : Bool) (owner target : Classifier) :
    RelationshipKind → Prop where
  | superclass {name : String} (wanted : withSupertypes = true)
      (declared : owner.declaredSuperclass = some name)
      (means : s.resolve owner name = some target) :
      Calls s withSupertypes owner target .inheritance
  | listed {name : String} (wanted : withSupertypes = true)
      (declared : name ∈ owner.declaredInterfaces) (means : s.resolve owner name = some target) :
      Calls s withSupertypes owner target (listedKind owner.kind)
  | field {f : Field} {name : String} (member : f ∈ owner.fields)
      (named : name ∈ Java.TypeNames.ofText f.typeName) (means : s.resolve owner name = some target) :
      Calls s withSupertypes owner target (fieldKind f.isFinal)
  | returned {op : Operation} {type name : String} (member : op ∈ owner.operations)
      (typed : op.returnType = some type) (named : name ∈ Java.TypeNames.ofText type)
      (means : s.resolve owner name = some target) : Calls s withSupertypes owner target .dependency
  | parameter {op : Operation} {p : Parameter} {name : String} (member : op ∈ owner.operations)
      (taken : p ∈ op.parameters) (named : name ∈ Java.TypeNames.ofText p.typeName)
      (means : s.resolve owner name = some target) : Calls s withSupertypes owner target .dependency

/-- A text is examined of a classifier and calls for an edge of a kind, whatever it means. -/
inductive Examines (withSupertypes : Bool) (owner : Classifier) (text : String) :
    RelationshipKind → Prop where
  | superclass (wanted : withSupertypes = true) (declared : owner.declaredSuperclass = some text)
      (given : text ≠ "") : Examines withSupertypes owner text .inheritance
  | listed (wanted : withSupertypes = true) (declared : text ∈ owner.declaredInterfaces) :
      Examines withSupertypes owner text (listedKind owner.kind)
  | field {f : Field} (member : f ∈ owner.fields) (named : text ∈ Java.TypeNames.ofText f.typeName) :
      Examines withSupertypes owner text (fieldKind f.isFinal)
  | returned {op : Operation} {type : String} (member : op ∈ owner.operations)
      (typed : op.returnType = some type) (named : text ∈ Java.TypeNames.ofText type) :
      Examines withSupertypes owner text .dependency
  | parameter {op : Operation} {p : Parameter} (member : op ∈ owner.operations)
      (taken : p ∈ op.parameters) (named : text ∈ Java.TypeNames.ofText p.typeName) :
      Examines withSupertypes owner text .dependency

/-- What tells relationships apart: the objects at both ends, and the kind. -/
def triple {τ : Type} (r : RelationshipOf τ) : Nat × Nat × RelationshipKind :=
  (r.source.key, r.target.key, r.kind)

def Edge.triple (e : Edge) : Nat × Nat × RelationshipKind := (e.source.key, e.target.key, e.kind)

/-- All edges that references call for, as often as they do. -/
def calledEdges (s : Scope) (withSupertypes : Bool) : List Edge :=
  (references s.classifiers withSupertypes).filterMap (·.edge? s)

def called (s : Scope) (withSupertypes : Bool) : List (Nat × Nat × RelationshipKind) :=
  (calledEdges s withSupertypes).map Edge.triple

/-- The pass that finds edges of a kind: supertypes, then fields, then signatures. -/
def pass : RelationshipKind → Nat
  | .inheritance | .implementation => 0
  | .association | .aggregation | .composition => 1
  | .dependency => 2

/-- The place of a classifier among others. -/
def place (cs : List Classifier) (key : Nat) : Nat := (cs.map (·.key)).idxOf key

/-- The relationships are the edges that classifiers call for, and come as they are called for. -/
structure Exact (s : Scope) (withSupertypes : Bool) (found : List Relationship) : Prop where
  /-- No edge is found twice. -/
  distinct : (found.map triple).Nodup
  /-- Every edge leads from one classifier to another. -/
  proper : ∀ r ∈ found, ∃ a ∈ s.classifiers, ∃ b ∈ s.classifiers,
    r.source = a.toEndpoint ∧ r.target = b.toEndpoint ∧ a.key ≠ b.key
  /-- Between two classifiers an edge is found exactly when it is called for. -/
  complete : ∀ a ∈ s.classifiers, ∀ b ∈ s.classifiers, a.key ≠ b.key → ∀ kind,
    (a.key, b.key, kind) ∈ found.map triple ↔ Calls s withSupertypes a b kind
  /-- An edge stands before another if it is called for first. -/
  ordered : (found.map triple).Pairwise fun x y =>
    (called s withSupertypes).idxOf x < (called s withSupertypes).idxOf y
  /-- Edges to supertypes come first, then those of fields, then those of signatures; those of one pass
  come in the order of the classifiers. -/
  passes : (found.map triple).Pairwise fun x y => pass x.2.2 < pass y.2.2 ∨
    pass x.2.2 = pass y.2.2 ∧ place s.classifiers x.1 ≤ place s.classifiers y.1

/-! ## First occurrences -/

section FirstBy

variable {α κ κ' : Type} [BEq κ] [LawfulBEq κ] [BEq κ'] [LawfulBEq κ'] {key : α → κ} {key' : α → κ'}
  {seen : List κ} {seen' : List κ'} {xs : List α}

omit [LawfulBEq κ] in
theorem firstBy_sublist : (firstBy key seen xs).Sublist xs := by
  induction xs generalizing seen with
  | nil => exact .slnil
  | cons x xs ih =>
    rw [firstBy]
    split
    · exact ih.cons x
    · exact ih.cons_cons x

omit [LawfulBEq κ] in
theorem firstBy_map {β : Type} {key' : β → κ} {g : α → β} (hkey : ∀ x, key' (g x) = key x)
    (seen : List κ) (xs : List α) : firstBy key' seen (xs.map g) = (firstBy key seen xs).map g := by
  induction xs generalizing seen with
  | nil => rfl
  | cons x xs ih =>
    rw [List.map_cons, firstBy, firstBy, hkey]
    split
    · exact ih seen
    · rw [List.map_cons, ih]

theorem mem_map_firstBy {k : κ} : k ∈ (firstBy key seen xs).map key ↔ k ∈ xs.map key ∧ k ∉ seen := by
  induction xs generalizing seen with
  | nil => simp [firstBy]
  | cons x xs ih =>
    rw [firstBy]
    by_cases hx : key x ∈ seen
    · rw [if_pos (List.contains_iff_mem.mpr hx), ih, List.map_cons, List.mem_cons]
      constructor
      · exact fun ⟨hk, hs⟩ => ⟨.inr hk, hs⟩
      · intro hgiven
        obtain ⟨rfl | hk, hs⟩ := hgiven
        · exact absurd hx hs
        · exact ⟨hk, hs⟩
    · rw [if_neg (mt List.contains_iff_mem.mp hx), List.map_cons, List.mem_cons, ih, List.map_cons,
        List.mem_cons, List.mem_cons]
      by_cases hk : k = key x
      · simp [hk, hx]
      · simp [hk]

theorem firstBy_nodup : ((firstBy key seen xs).map key).Nodup := by
  induction xs generalizing seen with
  | nil => exact .nil
  | cons x xs ih =>
    rw [firstBy]
    split
    · exact ih
    · rw [List.map_cons, List.nodup_cons, mem_map_firstBy]
      exact ⟨fun h => h.2 List.mem_cons_self, ih⟩

/-- What is kept stands in the order in which it first occurred. -/
theorem firstBy_ordered : ((firstBy key seen xs).map key).Pairwise fun a b =>
    (xs.map key).idxOf a < (xs.map key).idxOf b := by
  induction xs generalizing seen with
  | nil => exact .nil
  | cons x xs ih =>
    -- Behind the first item every index is one more, unless the item's own key comes again.
    have hlater : ∀ {k}, k ≠ key x →
        ((x :: xs).map key).idxOf k = (xs.map key).idxOf k + 1 := fun hk => by
      rw [List.map_cons, List.idxOf_cons_ne _ (Ne.symm hk)]
    have hrest : ∀ {seen}, key x ∈ seen → ((firstBy key seen xs).map key).Pairwise fun a b =>
        ((x :: xs).map key).idxOf a < ((x :: xs).map key).idxOf b := by
      intro seen hx
      refine ih.imp_of_mem fun {a b} ha hb hab => ?_
      have ha' : a ≠ key x := fun he => (mem_map_firstBy.mp ha).2 (he.symm ▸ hx)
      have hb' : b ≠ key x := fun he => (mem_map_firstBy.mp hb).2 (he.symm ▸ hx)
      rw [hlater ha', hlater hb']
      omega
    rw [firstBy]
    split
    · rename_i hx
      exact hrest (List.contains_iff_mem.mp hx)
    · refine List.pairwise_cons.mpr ⟨fun b hb => ?_, hrest List.mem_cons_self⟩
      have hb' : b ≠ key x := fun he => (mem_map_firstBy.mp hb).2 (he ▸ List.mem_cons_self)
      rw [hlater hb', List.map_cons, List.idxOf_cons_self]
      omega

/-- Two keys that tell the same items apart keep the same items. -/
theorem firstBy_congr (hseen : ∀ x ∈ xs, key x ∈ seen ↔ key' x ∈ seen')
    (h : ∀ x ∈ xs, ∀ y ∈ xs, key x = key y ↔ key' x = key' y) :
    firstBy key seen xs = firstBy key' seen' xs := by
  induction xs generalizing seen seen' with
  | nil => rfl
  | cons x xs ih =>
    have h' : ∀ a ∈ xs, ∀ b ∈ xs, key a = key b ↔ key' a = key' b := fun a ha b hb =>
      h a (List.mem_cons_of_mem _ ha) b (List.mem_cons_of_mem _ hb)
    have hx : seen.contains (key x) = seen'.contains (key' x) := by
      rw [Bool.eq_iff_iff, List.contains_iff_mem, List.contains_iff_mem]
      exact hseen x List.mem_cons_self
    rw [firstBy, firstBy, hx]
    split
    · exact ih (fun y hy => hseen y (List.mem_cons_of_mem _ hy)) h'
    · refine congrArg (x :: ·) (ih (fun y hy => ?_) h')
      rw [List.mem_cons, List.mem_cons, hseen y (List.mem_cons_of_mem _ hy),
        h y (List.mem_cons_of_mem _ hy) x List.mem_cons_self]

end FirstBy

/-! ## References and their edges -/

section References

variable {s : Scope} {withSupertypes : Bool} {a b : Classifier} {kind : RelationshipKind}
  {r : Reference} {e : Edge}

theorem Scope.prefer_mem {owner first : Classifier} {candidates : List Classifier}
    (h : first ∈ candidates) : s.prefer owner first candidates ∈ candidates := by
  unfold Scope.prefer
  dsimp only
  cases hfound : (candidates.find? (·.namespaceName == owner.namespaceName)).or
      (s.searchOrder.findSome? fun n => candidates.find? (·.namespaceName == n)) with
  | none => exact h
  | some c =>
    rcases Option.or_eq_some_iff.mp hfound with hfound | ⟨-, hfound⟩
    · exact List.mem_of_find?_eq_some hfound
    · obtain ⟨n, -, hfound⟩ := List.exists_of_findSome?_eq_some hfound
      exact List.mem_of_find?_eq_some hfound

/-- A simple name means a classifier of that name. -/
theorem Scope.lookUp_mem_named {owner c : Classifier} {name : String}
    (h : (s.lookUp owner name).target? = some c) : c ∈ s.named name := by
  unfold Scope.lookUp at h
  cases hnamed : s.named name with
  | nil =>
    rw [hnamed] at h
    cases h
  | cons first others =>
    rw [hnamed] at h
    cases others with
    | nil =>
      cases h
      exact List.mem_cons_self
    | cons second others =>
      cases h
      exact Scope.prefer_mem List.mem_cons_self

theorem Scope.lookUp_mem {owner c : Classifier} {name : String}
    (h : (s.lookUp owner name).target? = some c) : c ∈ s.classifiers ∧ c.name = name := by
  simpa [Scope.named] using Scope.lookUp_mem_named h

/-- A name means a classifier of the diagram or nothing. -/
theorem Scope.resolve_mem {owner c : Classifier} {text : String} (h : s.resolve owner text = some c) :
    c ∈ s.classifiers := by
  unfold Scope.resolve Scope.find at h
  dsimp only at h
  split at h
  · cases h
  · split at h
    · split at h
      · rename_i hqualified
        cases h
        exact List.mem_of_find?_eq_some hqualified
      · split at h
        · exact (Scope.lookUp_mem h).1
        · cases h
    · exact (Scope.lookUp_mem h).1

theorem edge?_eq_some : r.edge? s = some e ↔ s.resolve r.owner r.text = some e.target ∧
    r.owner = e.source ∧ r.owner.key ≠ e.target.key ∧ r.use.kind = e.kind := by
  obtain ⟨source, target, kind⟩ := e
  unfold Reference.edge?
  cases s.resolve r.owner r.text with
  | none => simp
  | some c =>
    rw [Option.bind_some]
    constructor
    · intro h
      split at h
      · cases h
      · rename_i hk
        cases h
        exact ⟨rfl, rfl, by simpa using hk, rfl⟩
    · intro hgiven
      obtain ⟨hc, howner, hk, hkind⟩ := hgiven
      obtain rfl := Option.some.inj hc
      rw [if_neg (by simpa using hk), howner, hkind]

/-- The references of a classifier, pass by pass. -/
def ownReferences (withSupertypes : Bool) (c : Classifier) : List Reference :=
  (if withSupertypes then supertypes c else []) ++ fieldReferences c ++ signatureReferences c

theorem mem_references {cs : List Classifier} :
    r ∈ references cs withSupertypes ↔ ∃ c ∈ cs, r ∈ ownReferences withSupertypes c := by
  have hsome : r ∈ (if withSupertypes then cs.flatMap supertypes else []) ↔
      ∃ c ∈ cs, r ∈ (if withSupertypes then supertypes c else []) := by
    cases withSupertypes <;> simp
  simp only [references, ownReferences, List.mem_append, List.mem_flatMap, hsome, ← exists_or,
    ← and_or_left]

theorem mem_supertypes : r ∈ supertypes a ↔
    (∃ name, a.declaredSuperclass = some name ∧ name ≠ "" ∧
      r = ⟨a, name, .supertype .extends .inheritance⟩) ∨
    ∃ name ∈ a.declaredInterfaces, r = ⟨a, name, if a.kind == .interface
      then .supertype .extends .inheritance else .supertype .implements .implementation⟩ := by
  simp [supertypes, and_assoc, @eq_comm _ r]

theorem mem_fieldReferences : r ∈ fieldReferences a ↔
    ∃ f ∈ a.fields, ∃ name ∈ Java.TypeNames.ofText f.typeName, r = ⟨a, name, .field f.isFinal⟩ := by
  simp [fieldReferences, @eq_comm _ r]

theorem mem_signatureReferences : r ∈ signatureReferences a ↔
    ∃ op ∈ a.operations, ∃ type ∈ signatureTypes op, ∃ name ∈ Java.TypeNames.ofText type,
      r = ⟨a, name, .signature⟩ := by
  simp [signatureReferences, @eq_comm _ r]

theorem owner_of_mem (h : r ∈ ownReferences withSupertypes a) : r.owner = a := by
  rw [ownReferences, List.mem_append, List.mem_append] at h
  rcases h with (h | h) | h
  · cases withSupertypes with
    | false => cases h
    | true => rcases mem_supertypes.mp h with ⟨name, -, -, rfl⟩ | ⟨name, -, rfl⟩ <;> rfl
  · obtain ⟨f, -, name, -, rfl⟩ := mem_fieldReferences.mp h
    rfl
  · obtain ⟨op, -, type, -, name, -, rfl⟩ := mem_signatureReferences.mp h
    rfl

theorem owner_of_mem_references {cs : List Classifier} (h : r ∈ references cs withSupertypes) :
    r.owner ∈ cs := by
  obtain ⟨c, hc, hr⟩ := mem_references.mp h
  rw [owner_of_mem hr]
  exact hc

theorem use_kind_listed : (if a.kind == .interface then Use.supertype .extends .inheritance
    else .supertype .implements .implementation).kind = listedKind a.kind := by
  cases a.kind <;> rfl

theorem use_kind_field {isFinal : Bool} : (Use.field isFinal).kind = fieldKind isFinal := by
  cases isFinal <;> rfl

theorem mem_signatureTypes {op : Operation} {type : String} : type ∈ signatureTypes op ↔
    op.returnType = some type ∨ ∃ p ∈ op.parameters, p.typeName = type := by
  simp [signatureTypes]

/-- What is examined of a classifier is what its references say. -/
theorem examines_iff {text : String} : Examines withSupertypes a text kind ↔
    ∃ r ∈ ownReferences withSupertypes a, r.text = text ∧ r.use.kind = kind := by
  have hown : ∀ {r}, r ∈ ownReferences withSupertypes a ↔
      (withSupertypes = true ∧ r ∈ supertypes a ∨ r ∈ fieldReferences a) ∨
        r ∈ signatureReferences a := by
    intro r
    cases withSupertypes <;> simp [ownReferences, or_assoc]
  constructor
  · intro h
    cases h with
    | superclass wanted declared given =>
      exact ⟨_, hown.mpr (.inl (.inl ⟨wanted, mem_supertypes.mpr (.inl ⟨_, declared, given, rfl⟩)⟩)),
        rfl, rfl⟩
    | listed wanted declared =>
      exact ⟨_, hown.mpr (.inl (.inl ⟨wanted, mem_supertypes.mpr (.inr ⟨_, declared, rfl⟩)⟩)),
        rfl, use_kind_listed⟩
    | field member named =>
      exact ⟨_, hown.mpr (.inl (.inr (mem_fieldReferences.mpr ⟨_, member, _, named, rfl⟩))), rfl,
        use_kind_field⟩
    | returned member typed named =>
      exact ⟨_, hown.mpr (.inr (mem_signatureReferences.mpr
        ⟨_, member, _, mem_signatureTypes.mpr (.inl typed), _, named, rfl⟩)), rfl, rfl⟩
    | parameter member taken named =>
      exact ⟨_, hown.mpr (.inr (mem_signatureReferences.mpr
        ⟨_, member, _, mem_signatureTypes.mpr (.inr ⟨_, taken, rfl⟩), _, named, rfl⟩)), rfl, rfl⟩
  · intro hgiven
    obtain ⟨r, hr, rfl, rfl⟩ := hgiven
    rcases hown.mp hr with (⟨wanted, hr⟩ | hr) | hr
    · rcases mem_supertypes.mp hr with ⟨name, declared, given, rfl⟩ | ⟨name, declared, rfl⟩
      · exact .superclass wanted declared given
      · rw [use_kind_listed]
        exact .listed wanted declared
    · obtain ⟨f, member, name, named, rfl⟩ := mem_fieldReferences.mp hr
      rw [use_kind_field]
      exact .field member named
    · obtain ⟨op, member, type, typed, name, named, rfl⟩ := mem_signatureReferences.mp hr
      rcases mem_signatureTypes.mp typed with typed | ⟨p, taken, rfl⟩
      · exact .returned member typed named
      · exact .parameter member taken named

/-- What a classifier calls for is what is examined of it, as far as it means a classifier. -/
theorem calls_iff_examines : Calls s withSupertypes a b kind ↔
    ∃ text, Examines withSupertypes a text kind ∧ s.resolve a text = some b := by
  constructor
  · intro h
    cases h with
    | @superclass name wanted declared means =>
      have hname : name ≠ "" := by
        rintro rfl
        cases means
      exact ⟨_, .superclass wanted declared hname, means⟩
    | listed wanted declared means => exact ⟨_, .listed wanted declared, means⟩
    | field member named means => exact ⟨_, .field member named, means⟩
    | returned member typed named means => exact ⟨_, .returned member typed named, means⟩
    | parameter member taken named means => exact ⟨_, .parameter member taken named, means⟩
  · intro hgiven
    obtain ⟨text, hexamined, means⟩ := hgiven
    cases hexamined with
    | superclass wanted declared => exact .superclass wanted declared means
    | listed wanted declared => exact .listed wanted declared means
    | field member named => exact .field member named means
    | returned member typed named => exact .returned member typed named means
    | parameter member taken named => exact .parameter member taken named means

/-- What a classifier calls for is what its references lead to. -/
theorem calls_iff : Calls s withSupertypes a b kind ↔ ∃ r ∈ ownReferences withSupertypes a,
    s.resolve a r.text = some b ∧ r.use.kind = kind := by
  rw [calls_iff_examines]
  constructor
  · intro hgiven
    obtain ⟨text, hexamined, means⟩ := hgiven
    obtain ⟨r, hr, rfl, hkind⟩ := examines_iff.mp hexamined
    exact ⟨r, hr, means, hkind⟩
  · intro hgiven
    obtain ⟨r, hr, means, hkind⟩ := hgiven
    exact ⟨r.text, examines_iff.mpr ⟨r, hr, rfl, hkind⟩, means⟩

/-- An edge is called for by a reference exactly when its source calls for it. -/
theorem mem_calledEdges : e ∈ calledEdges s withSupertypes ↔ e.source ∈ s.classifiers ∧
    e.source.key ≠ e.target.key ∧ Calls s withSupertypes e.source e.target e.kind := by
  rw [calledEdges, List.mem_filterMap, calls_iff]
  constructor
  · intro hgiven
    obtain ⟨r, hr, hre⟩ := hgiven
    obtain ⟨c, hc, hr⟩ := mem_references.mp hr
    obtain ⟨hresolve, howner, hne, hkind⟩ := edge?_eq_some.mp hre
    obtain rfl := (owner_of_mem hr).symm.trans howner
    rw [howner] at hresolve hne
    exact ⟨hc, hne, r, hr, hresolve, hkind⟩
  · intro hgiven
    obtain ⟨hc, hne, r, hr, hresolve, hkind⟩ := hgiven
    have howner := owner_of_mem hr
    rw [← howner] at hresolve hne
    exact ⟨r, mem_references.mpr ⟨_, hc, hr⟩, edge?_eq_some.mpr ⟨hresolve, howner, hne, hkind⟩⟩

theorem Calls.target_mem (h : Calls s withSupertypes a b kind) : b ∈ s.classifiers := by
  obtain ⟨r, -, hresolve, -⟩ := calls_iff.mp h
  exact Scope.resolve_mem hresolve

end References

/-! ## Passes -/

section Passes

/-- The pass in which a reference is examined. -/
def Use.pass : Use → Nat
  | .supertype .. => 0
  | .field _ => 1
  | .signature => 2

/-- References as they come: pass by pass, and in each pass classifier by classifier. -/
def Comes (cs : List Classifier) (r r' : Reference) : Prop :=
  r.use.pass < r'.use.pass ∨ r.use.pass = r'.use.pass ∧ place cs r.owner.key ≤ place cs r'.owner.key

variable {cs : List Classifier} {withSupertypes : Bool}

theorem place_pairwise (h : (cs.map (·.key)).Nodup) :
    cs.Pairwise fun a b => place cs a.key < place cs b.key := by
  rw [List.pairwise_iff_getElem]
  intro i j hi hj hij
  have hplace : ∀ k (hk : k < cs.length), place cs cs[k].key = k := by
    intro k hk
    have hidx := h.idxOf_getElem k (by simpa using hk)
    rwa [List.getElem_map] at hidx
  rw [hplace i hi, hplace j hj]
  exact hij

/-- The references of one pass come classifier by classifier. -/
theorem comes_pass {own : Classifier → List Reference} {p : Nat} (h : (cs.map (·.key)).Nodup)
    (howner : ∀ c, ∀ r ∈ own c, r.owner = c) (hpass : ∀ c, ∀ r ∈ own c, r.use.pass = p) :
    (cs.flatMap own).Pairwise (Comes cs) := by
  rw [List.pairwise_flatMap]
  constructor
  · intro c hc
    refine List.pairwise_of_forall_mem_list fun r hr r' hr' => .inr ⟨?_, ?_⟩
    · rw [hpass c r hr, hpass c r' hr']
    · exact Nat.le_of_eq (by rw [howner c r hr, howner c r' hr'])
  · refine (place_pairwise h).imp fun {c c'} hlt r hr r' hr' => .inr ⟨?_, ?_⟩
    · rw [hpass c r hr, hpass c' r' hr']
    · rw [howner c r hr, howner c' r' hr']
      exact Nat.le_of_lt hlt

theorem Comes.of_append {rs rs' : List Reference} {p : Nat} (h : rs.Pairwise (Comes cs))
    (h' : rs'.Pairwise (Comes cs)) (hrs : ∀ r ∈ rs, r.use.pass < p)
    (hrs' : ∀ r ∈ rs', r.use.pass = p) : (rs ++ rs').Pairwise (Comes cs) := by
  refine List.pairwise_append.mpr ⟨h, h', fun r hr r' hr' => .inl ?_⟩
  rw [hrs' r' hr']
  exact hrs r hr

theorem pass_of_mem_supertypes {c : Classifier} {r : Reference} (h : r ∈ supertypes c) :
    r.use.pass = 0 ∧ pass r.use.kind = 0 := by
  rcases mem_supertypes.mp h with ⟨name, -, -, rfl⟩ | ⟨name, -, rfl⟩
  · exact ⟨rfl, rfl⟩
  · cases c.kind <;> exact ⟨rfl, rfl⟩

theorem pass_of_mem_fieldReferences {c : Classifier} {r : Reference} (h : r ∈ fieldReferences c) :
    r.use.pass = 1 ∧ pass r.use.kind = 1 := by
  obtain ⟨f, -, name, -, rfl⟩ := mem_fieldReferences.mp h
  cases hf : f.isFinal <;> exact ⟨rfl, rfl⟩

theorem pass_of_mem_signatureReferences {c : Classifier} {r : Reference}
    (h : r ∈ signatureReferences c) : r.use.pass = 2 ∧ pass r.use.kind = 2 := by
  obtain ⟨op, -, type, -, name, -, rfl⟩ := mem_signatureReferences.mp h
  exact ⟨rfl, rfl⟩

/-- The kind of an edge tells the pass in which it was called for. -/
theorem pass_kind {c : Classifier} {r : Reference} (h : r ∈ ownReferences withSupertypes c) :
    pass r.use.kind = r.use.pass := by
  rw [ownReferences, List.mem_append, List.mem_append] at h
  rcases h with (h | h) | h
  · cases withSupertypes with
    | false => cases h
    | true =>
      obtain ⟨hpass, hkind⟩ := pass_of_mem_supertypes h
      rw [hpass, hkind]
  · obtain ⟨hpass, hkind⟩ := pass_of_mem_fieldReferences h
    rw [hpass, hkind]
  · obtain ⟨hpass, hkind⟩ := pass_of_mem_signatureReferences h
    rw [hpass, hkind]

theorem references_comes (h : (cs.map (·.key)).Nodup) :
    (references cs withSupertypes).Pairwise (Comes cs) := by
  have howner : ∀ c, ∀ r ∈ ownReferences true c, r.owner = c := fun c r => owner_of_mem
  have hsupertypes : (cs.flatMap supertypes).Pairwise (Comes cs) :=
    comes_pass h (fun c r hr => howner c r (by simp [ownReferences, hr]))
      fun c r hr => (pass_of_mem_supertypes hr).1
  have hfields : (cs.flatMap fieldReferences).Pairwise (Comes cs) :=
    comes_pass h (fun c r hr => howner c r (by simp [ownReferences, hr]))
      fun c r hr => (pass_of_mem_fieldReferences hr).1
  have hsignatures : (cs.flatMap signatureReferences).Pairwise (Comes cs) :=
    comes_pass h (fun c r hr => howner c r (by simp [ownReferences, hr]))
      fun c r hr => (pass_of_mem_signatureReferences hr).1
  have hwanted : (if withSupertypes then cs.flatMap supertypes else []).Pairwise (Comes cs) ∧
      ∀ r ∈ (if withSupertypes then cs.flatMap supertypes else []), r.use.pass = 0 := by
    cases withSupertypes with
    | false => exact ⟨.nil, fun _ hr => (List.not_mem_nil hr).elim⟩
    | true =>
      refine ⟨hsupertypes, fun r hr => ?_⟩
      obtain ⟨c, -, hr⟩ := List.mem_flatMap.mp hr
      exact (pass_of_mem_supertypes hr).1
  have hfield : ∀ r ∈ cs.flatMap fieldReferences, r.use.pass = 1 := by
    intro r hr
    obtain ⟨c, -, hr⟩ := List.mem_flatMap.mp hr
    exact (pass_of_mem_fieldReferences hr).1
  have hsignature : ∀ r ∈ cs.flatMap signatureReferences, r.use.pass = 2 := by
    intro r hr
    obtain ⟨c, -, hr⟩ := List.mem_flatMap.mp hr
    exact (pass_of_mem_signatureReferences hr).1
  refine Comes.of_append (Comes.of_append hwanted.1 hfields ?_ hfield) hsignatures ?_ hsignature
  · intro r hr
    rw [hwanted.2 r hr]
    exact Nat.one_pos
  · intro r hr
    rcases List.mem_append.mp hr with hr | hr
    · rw [hwanted.2 r hr]
      exact Nat.two_pos
    · rw [hfield r hr]
      exact Nat.one_lt_two

/-- Edges are called for pass by pass, and in each pass classifier by classifier. -/
theorem calledEdges_passes {s : Scope} (h : (s.classifiers.map (·.key)).Nodup) :
    (calledEdges s withSupertypes).Pairwise fun e e' => pass e.kind < pass e'.kind ∨
      pass e.kind = pass e'.kind ∧
        place s.classifiers e.source.key ≤ place s.classifiers e'.source.key := by
  have hedge : ∀ r ∈ references s.classifiers withSupertypes, ∀ e, r.edge? s = some e →
      pass e.kind = r.use.pass ∧ r.owner = e.source := by
    intro r hr e he
    obtain ⟨c, -, hr⟩ := mem_references.mp hr
    obtain ⟨-, howner, -, hkind⟩ := edge?_eq_some.mp he
    exact ⟨hkind ▸ pass_kind hr, howner⟩
  rw [calledEdges, List.pairwise_filterMap]
  refine (references_comes h).imp_of_mem fun {r r'} hr hr' hcomes e he e' he' => ?_
  obtain ⟨hpass, howner⟩ := hedge r hr e he
  obtain ⟨hpass', howner'⟩ := hedge r' hr' e' he'
  rw [hpass, hpass', ← howner, ← howner']
  exact hcomes

end Passes

/-! ## Edges as relationships -/

/-- The classifiers of an edge as a relationship knows them, with its kind. -/
def Edge.ends (e : Edge) : Endpoint × Endpoint × RelationshipKind :=
  (e.source.toEndpoint, e.target.toEndpoint, e.kind)

theorem enrolAll_ends {es : List Edge} {supply : Supply} :
    (enrolAll supply es).1.map (fun r => (r.source, r.target, r.kind)) = es.map Edge.ends := by
  induction es generalizing supply with
  | nil => rfl
  | cons e es ih => exact congrArg (e.ends :: ·) ih

/-! ## The whole analysis -/

/-- Where ids tell classifiers apart, the edges found are the first ones of each triple. -/
theorem edges_eq {s : Scope} {withSupertypes : Bool}
    (hid : ∀ a ∈ s.classifiers, ∀ b ∈ s.classifiers, a.id = b.id ↔ a.key = b.key) :
    edges s (references s.classifiers withSupertypes) =
      firstBy Edge.triple [] (calledEdges s withSupertypes) := by
  refine firstBy_congr (fun _ _ => by simp) fun e he e' he' => ?_
  obtain ⟨hs, -, hcalls⟩ := mem_calledEdges.mp he
  obtain ⟨hs', -, hcalls'⟩ := mem_calledEdges.mp he'
  simp only [Edge.identity, Edge.triple, Prod.mk.injEq, hid _ hs _ hs',
    hid _ hcalls.target_mem _ hcalls'.target_mem]

section Whole

variable {w : Identity String} {d : Diagram} {searchOrder : List String} {withSupertypes : Bool}
  {found : List Relationship}

/-- Inference finds the first edge of each triple that is called for. -/
theorem found_ends (h : Reachable w d) (searchOrder : List String) (withSupertypes : Bool)
    (supply : Supply) :
    (analyze d searchOrder withSupertypes supply).1.relationships.map
        (fun r => (r.source, r.target, r.kind)) =
      (firstBy Edge.triple [] (calledEdges ⟨d.classifiers, searchOrder⟩ withSupertypes)).map
        Edge.ends := by
  have hedges : edges ⟨d.classifiers, searchOrder⟩ (references d.classifiers withSupertypes) =
      firstBy Edge.triple [] (calledEdges ⟨d.classifiers, searchOrder⟩ withSupertypes) := by
    refine edges_eq fun a ha b hb => ⟨fun hid => ?_, fun hk => ?_⟩
    · rw [h.tracked.eq_of_id ha hb hid]
    · rw [h.tracked.eq_of_key ha hb hk]
  exact hedges ▸ enrolAll_ends

/-- The first edges of each triple are exactly those that are called for. -/
theorem exact_of_ends (h : Reachable w d) (hends : found.map (fun r => (r.source, r.target, r.kind)) =
      (firstBy Edge.triple [] (calledEdges ⟨d.classifiers, searchOrder⟩ withSupertypes)).map
        Edge.ends) : Exact ⟨d.classifiers, searchOrder⟩ withSupertypes found := by
  let s : Scope := ⟨d.classifiers, searchOrder⟩
  have hkey : ∀ a ∈ d.classifiers, ∀ b ∈ d.classifiers, a.key = b.key → a = b :=
    fun a ha b hb => h.tracked.eq_of_key ha hb
  have htriples : found.map triple =
      (firstBy Edge.triple [] (calledEdges s withSupertypes)).map Edge.triple := by
    have hmap := congrArg (List.map fun x => (x.1.key, x.2.1.key, x.2.2)) hends
    rwa [List.map_map, List.map_map] at hmap
  refine ⟨?_, ?_, ?_, ?_, ?_⟩
  · rw [htriples]
    exact firstBy_nodup
  · intro r hr
    obtain ⟨e, he, hre⟩ := List.mem_map.mp (hends ▸ List.mem_map_of_mem hr)
    obtain ⟨hsource, hne, hcalls⟩ := mem_calledEdges.mp (firstBy_sublist.subset he)
    simp only [Edge.ends, Prod.mk.injEq] at hre
    obtain ⟨hrs, hrt, -⟩ := hre
    exact ⟨e.source, hsource, e.target, hcalls.target_mem, hrs.symm, hrt.symm, hne⟩
  · intro a ha b hb hne kind
    rw [htriples, mem_map_firstBy, and_iff_left List.not_mem_nil, List.mem_map]
    constructor
    · intro hgiven
      obtain ⟨e, he, hae⟩ := hgiven
      obtain ⟨hsource, -, hcalls⟩ := mem_calledEdges.mp he
      simp only [Edge.triple, Prod.mk.injEq] at hae
      obtain ⟨hka, hkb, rfl⟩ := hae
      rw [hkey _ hsource a ha hka, hkey _ hcalls.target_mem b hb hkb] at hcalls
      exact hcalls
    · exact fun hcalls => ⟨⟨a, b, kind⟩, mem_calledEdges.mpr ⟨ha, hne, hcalls⟩, rfl⟩
  · rw [htriples]
    exact firstBy_ordered
  · rw [htriples, List.pairwise_map]
    exact (calledEdges_passes (s := s) h.tracked.nodup).sublist firstBy_sublist

/-- The relationships that inference finds in a reachable diagram are exactly those that its
classifiers call for, each once, in the order in which they are called for. -/
theorem analyze_exact {w : Identity String} {d : Diagram} (h : Reachable w d)
    (searchOrder : List String) (withSupertypes : Bool) (supply : Supply) :
    Exact ⟨d.classifiers, searchOrder⟩ withSupertypes
      (analyze d searchOrder withSupertypes supply).1.relationships :=
  exact_of_ends h (found_ends h searchOrder withSupertypes supply)

end Whole

/-- An order of items of one name: the one in its own namespace is meant, and found once only. -/
theorem analyze_exact_clash :
    let item := { bareClass 0 "i" with name := "Item", namespaceName := "stock" }
    let line := { bareClass 1 "l" with name := "Item", namespaceName := "shop" }
    let order := { bareClass 2 "o" with
      namespaceName := "shop", declaredInterfaces := ["stock.Item"]
      fields := [⟨"lines", "List<Item>", none, .private, false, true⟩]
      operations := [{ name := "first", returnType := some "Item", parameters := [⟨"of", "Item[]", none⟩] }] }
    let w : Identity String := ⟨fun key => if key = 0 then "i" else if key = 1 then "l" else "o",
      fun _ => 0, fun _ => 0⟩
    let d : Diagram := { (DiagramOf.empty "shop" "" none none none {}).1 with
      elements := [.classifier item, .classifier line, .classifier order]
      index := [("i", 0), ("l", 1), ("o", 2)] }
    let found := (analyze d [] true {}).1.relationships
    Reachable w d ∧ Exact ⟨d.classifiers, []⟩ true found ∧
      found.map triple = [(2, 0, .implementation), (2, 1, .composition), (2, 1, .dependency)] := by
  intro item line order w d found
  have hreach : Reachable w d := by
    have hnew : Reachable w (DiagramOf.empty "shop" "" none none none {}).1 := .new ..
    have hitem := hnew.withClassifier (c := item) rfl rfl
    have hline := hitem.withClassifier (c := line) rfl rfl
    exact hline.withClassifier (c := order) rfl rfl
  exact ⟨hreach, analyze_exact hreach [] true {}, by decide +kernel⟩

end ClassAtlas.Inference
