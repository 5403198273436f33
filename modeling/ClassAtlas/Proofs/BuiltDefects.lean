import ClassAtlas.Proofs.MergedEdges
import ClassAtlas.Proofs.SoundDiagrams

/-! # What can be wrong with a diagram that was built

Building enters every edge that inference finds. A class gets an inheritance edge from its declared
superclass only, and that means one classifier at most; no edge leads back to its own start, and none
has multiplicities. That rules out three kinds of defects, and all cycles of a single edge. Nothing
rules out the others: names given twice, longer cycles, and classes among the listed supertypes. -/

namespace ClassAtlas

namespace Inference

/-- Relationships as inference finds them, as far as the rules for diagrams ask. -/
structure Drawn (found : List Relationship) : Prop where
  distinct : (found.map triple).Nodup
  proper : ∀ r ∈ found, r.source.key ≠ r.target.key
  /-- Of the inheritance edges that start at a class, all lead to one classifier. -/
  single : ∀ r ∈ found, ∀ r' ∈ found, r.kind = .inheritance → r'.kind = .inheritance →
    r.source = r'.source → r.source.kind ≠ .interface → r.target = r'.target
  uncounted : ∀ r ∈ found, r.sourceMultiplicity = none ∧ r.targetMultiplicity = none

theorem Drawn.nil : Drawn [] :=
  ⟨.nil, List.forall_mem_nil _, List.forall_mem_nil _, List.forall_mem_nil _⟩

section Analyzed

variable {s : Scope} {withSupertypes : Bool} {owner target : Classifier} {kind : RelationshipKind}
  {es : List Edge} {w : Identity String} {d : Diagram} {supply : Supply}

/-- A class inherits from its declared superclass, and from nothing else. -/
theorem Calls.declared_superclass (h : Calls s withSupertypes owner target kind)
    (hkind : kind = .inheritance) (hclass : owner.kind ≠ .interface) :
    ∃ name, owner.declaredSuperclass = some name ∧ s.resolve owner name = some target := by
  cases h with
  | superclass _ declared means => exact ⟨_, declared, means⟩
  | listed => cases howner : owner.kind <;> simp_all [listedKind]
  | @field f => cases hfinal : f.isFinal <;> simp [fieldKind, hfinal] at hkind
  | returned => cases hkind
  | parameter => cases hkind

theorem uncounted_enrolAll : ∀ r ∈ (enrolAll supply es).1,
    r.sourceMultiplicity = none ∧ r.targetMultiplicity = none := by
  induction es generalizing supply with
  | nil => exact List.forall_mem_nil _
  | cons e es ih => exact List.forall_mem_cons.mpr ⟨⟨rfl, rfl⟩, ih⟩

/-- An inheritance edge that starts at a class leads to what the name of its superclass means. -/
theorem superclass_of_found (h : Reachable w d) {searchOrder : List String} {r : Relationship}
    (hr : r ∈ (analyze d searchOrder withSupertypes supply).1.relationships)
    (hkind : r.kind = .inheritance) (hclass : r.source.kind ≠ .interface) :
    ∃ a ∈ d.classifiers, r.source = a.toEndpoint ∧
      (a.declaredSuperclass.bind (Scope.resolve ⟨d.classifiers, searchOrder⟩ a)).map
        ClassifierOf.toEndpoint = some r.target := by
  have hexact := exact_of_ends h (found_ends h searchOrder withSupertypes supply)
  obtain ⟨a, ha, b, hb, hsource, htarget, hne⟩ := hexact.proper r hr
  have hmem := List.mem_map_of_mem (f := triple) hr
  rw [triple, hsource, htarget] at hmem
  rw [hsource] at hclass
  obtain ⟨name, hname, hmeans⟩ :=
    ((hexact.complete a ha b hb hne r.kind).mp hmem).declared_superclass hkind hclass
  refine ⟨a, ha, hsource, ?_⟩
  rw [hname, Option.bind_some, hmeans, Option.map_some, htarget]

theorem drawn_analyze (h : Reachable w d) (searchOrder : List String) (withSupertypes : Bool) :
    Drawn (analyze d searchOrder withSupertypes supply).1.relationships := by
  have hexact := exact_of_ends h (found_ends h searchOrder withSupertypes supply)
  refine ⟨hexact.distinct, fun r hr => ?_, ?_, uncounted_enrolAll⟩
  · obtain ⟨a, -, b, -, hsource, htarget, hne⟩ := hexact.proper r hr
    rwa [hsource, htarget]
  · intro r hr r' hr' hkind hkind' hstart hclass
    obtain ⟨a, ha, hsource, htarget⟩ := superclass_of_found h hr hkind hclass
    obtain ⟨a', ha', hsource', htarget'⟩ := superclass_of_found h hr' hkind' (hstart ▸ hclass)
    have hsame : a.toEndpoint = a'.toEndpoint := hsource.symm.trans (hstart.trans hsource')
    obtain rfl := h.tracked.eq_of_key ha ha' (congrArg EndpointOf.key hsame)
    exact Option.some.inj (htarget.symm.trans htarget')

end Analyzed

end Inference

/-! ## Defects that remain -/

namespace Validation

open Inference (Drawn triple)
open Relation (TransGen)

/-- The defects that a diagram can have once it was built. -/
inductive Possible (d : Diagram) : Defect → Prop where
  /-- A classifier before has the same name in the same namespace. -/
  | duplicate {first c : Classifier} (listed : [first, c].Sublist d.classifiers)
      (inNamespace : first.namespaceName = c.namespaceName) (named : first.name = c.name) :
      Possible d (.duplicateName c.qualifiedName)
  /-- Inheritance leads to another classifier, and back from there. -/
  | cycle {c other : Classifier} (mem : c ∈ d.classifiers) (mem' : other ∈ d.classifiers)
      (apart : c.key ≠ other.key) (up : TransGen (Inherits d) c.key other.key)
      (back : TransGen (Inherits d) other.key c.key) :
      Possible d (.inheritanceCycle c.qualifiedName)
  /-- What is implemented is a class or an enumeration. -/
  | target {r : Relationship} {c : Classifier} (mem : r ∈ d.relationships)
      (kind : r.kind = .implementation) (leads : c ∈ d.classifiers ∧ c.key = r.target.key)
      (contract : c.kind ≠ .interface) :
      Possible d (.implementationTarget r.source.qualifiedName c.qualifiedName)

section Rules

variable {w : Identity String} {d : Diagram} {defect : Defect}

/-- An entry is reported if its key was seen earlier, or one before it has the same. -/
theorem mem_repeated {κ α : Type} [BEq κ] [LawfulBEq κ] {seen : List κ} {entries : List (κ × α)}
    {x : α} : x ∈ repeated seen entries ↔ ∃ key, key ∈ seen ∧ (key, x) ∈ entries ∨
      ∃ first, [(key, first), (key, x)].Sublist entries := by
  induction entries generalizing seen with
  | nil => simp [repeated]
  | cons e entries ih =>
    obtain ⟨k, entry⟩ := e
    rw [repeated]
    simp only [List.sublist_cons_iff, List.mem_cons, Prod.mk.injEq, List.cons.injEq]
    by_cases hseen : k ∈ seen
    · rw [if_pos (List.contains_iff_mem.mpr hseen), List.mem_cons, ih]
      constructor
      · rintro (rfl | ⟨key, hkey | ⟨first, hsub⟩⟩)
        · exact ⟨k, .inl ⟨hseen, .inl ⟨rfl, rfl⟩⟩⟩
        · exact ⟨key, .inl ⟨hkey.1, .inr hkey.2⟩⟩
        · exact ⟨key, .inr ⟨first, .inl hsub⟩⟩
      · rintro ⟨key, ⟨hkey, ⟨rfl, rfl⟩ | hmem⟩ | ⟨first, hsub | ⟨r, ⟨⟨rfl, rfl⟩, rfl⟩, hsub⟩⟩⟩
        · exact .inl rfl
        · exact .inr ⟨key, .inl ⟨hkey, hmem⟩⟩
        · exact .inr ⟨key, .inr ⟨first, hsub⟩⟩
        · exact .inr ⟨key, .inl ⟨hseen, List.singleton_sublist.mp hsub⟩⟩
    · rw [if_neg (mt List.contains_iff_mem.mp hseen), ih]
      constructor
      · rintro ⟨key, ⟨hkey, hmem⟩ | ⟨first, hsub⟩⟩
        · rcases List.mem_cons.mp hkey with rfl | hkey
          · exact ⟨key, .inr ⟨entry, .inr ⟨_, ⟨⟨rfl, rfl⟩, rfl⟩, List.singleton_sublist.mpr hmem⟩⟩⟩
          · exact ⟨key, .inl ⟨hkey, .inr hmem⟩⟩
        · exact ⟨key, .inr ⟨first, .inl hsub⟩⟩
      · rintro ⟨key, ⟨hkey, ⟨rfl, rfl⟩ | hmem⟩ | ⟨first, hsub | ⟨r, ⟨⟨rfl, rfl⟩, rfl⟩, hsub⟩⟩⟩
        · exact absurd hkey hseen
        · exact ⟨key, .inl ⟨List.mem_cons_of_mem _ hkey, hmem⟩⟩
        · exact ⟨key, .inr ⟨first, hsub⟩⟩
        · exact ⟨key, .inl ⟨List.mem_cons_self, List.singleton_sublist.mp hsub⟩⟩

theorem mem_duplicateNames : defect ∈ duplicateNames d ↔ ∃ first c,
    [first, c].Sublist d.classifiers ∧ first.namespaceName = c.namespaceName ∧ first.name = c.name ∧
      defect = .duplicateName c.qualifiedName := by
  rw [duplicateNames, mem_repeated]
  simp only [List.not_mem_nil, false_and, false_or, List.sublist_map_iff]
  constructor
  · rintro ⟨key, entry, listed, hsub, hlisted⟩
    obtain ⟨first, c, rfl⟩ : ∃ first c, listed = [first, c] :=
      List.length_eq_two.mp (by simpa using (congrArg List.length hlisted).symm)
    simp only [List.map_cons, List.map_nil, List.cons.injEq, Prod.mk.injEq, and_true] at hlisted
    obtain ⟨⟨hfirst, -⟩, hc, rfl⟩ := hlisted
    have hboth := Prod.mk.inj (hfirst.symm.trans hc)
    exact ⟨first, c, hsub, hboth.1, hboth.2, rfl⟩
  · rintro ⟨first, c, hsub, hnamespace, hname, rfl⟩
    refine ⟨(c.namespaceName, c.name), .duplicateName first.qualifiedName, [first, c], hsub, ?_⟩
    rw [List.map_cons, List.map_cons, hnamespace, hname, List.map_nil]

/-- Where no edge leads back to its own start, a cycle leads through another classifier. -/
theorem cycle_iff (h : Reachable w d) (hproper : ∀ r ∈ d.relationships, r.source.key ≠ r.target.key)
    {key : Nat} : TransGen (Inherits d) key key ↔ ∃ other ∈ d.classifiers,
      key ≠ other.key ∧ TransGen (Inherits d) key other.key ∧ TransGen (Inherits d) other.key key := by
  constructor
  · intro hcycle
    obtain ⟨next, hstep, hpath⟩ := TransGen.head'_iff.mp hcycle
    obtain ⟨r, hr, -, hsource, htarget⟩ := id hstep
    obtain ⟨other, hother, hends⟩ := h.target_mem hr
    have hkey : other.key = next := by rw [← htarget, ← hends]; rfl
    have hne : key ≠ next := by
      rw [← hsource, ← htarget]
      exact hproper r hr
    rw [← hkey] at hstep hpath hne
    refine ⟨other, hother, hne, .single hstep, ?_⟩
    exact (Relation.reflTransGen_iff_eq_or_transGen.mp hpath).resolve_left hne
  · rintro ⟨other, -, -, hup, hback⟩
    exact hup.trans hback

/-- Edges as inference finds them lead from a class to one superclass at most. -/
theorem length_outgoing_le (h : Reachable w d) (hdrawn : Drawn d.relationships) {c : Classifier}
    (hc : c ∈ d.classifiers) (hclass : c.kind ≠ .interface) :
    (d.outgoing c.key (some .inheritance)).length ≤ 1 := by
  have hmem : ∀ r ∈ d.outgoing c.key (some .inheritance),
      r ∈ d.relationships ∧ r.source = c.toEndpoint ∧ r.kind = .inheritance := by
    intro r hr
    obtain ⟨hmem, hends⟩ := List.mem_filter.mp hr
    obtain ⟨hkey, hkind⟩ := Bool.and_eq_true_iff.mp hends
    obtain ⟨a, ha, hsource⟩ := h.source_mem hmem
    rw [← hsource] at hkey
    obtain rfl := h.tracked.eq_of_key ha hc (beq_iff_eq.mp hkey)
    exact ⟨hmem, hsource.symm, beq_iff_eq.mp hkind⟩
  have hdistinct : ((d.outgoing c.key (some .inheritance)).map triple).Nodup :=
    hdrawn.distinct.sublist (List.filter_sublist.map _)
  generalize d.outgoing c.key (some .inheritance) = rs at hmem hdistinct
  match rs with
  | [] | [_] => simp
  | r :: r' :: rest =>
    obtain ⟨hr, hsource, hkind⟩ := hmem r List.mem_cons_self
    obtain ⟨hr', hsource', hkind'⟩ := hmem r' (.tail _ List.mem_cons_self)
    have htarget := hdrawn.single r hr r' hr' hkind hkind' (hsource.trans hsource'.symm)
      (by rw [hsource]; exact hclass)
    have hsame : triple r = triple r' := by
      rw [triple, triple, hsource, hsource', htarget, hkind, hkind']
    exact absurd (hsame ▸ List.mem_cons_self) (List.nodup_cons.mp hdistinct).1

/-- Of a diagram whose edges are as inference finds them, exactly the possible defects are reported. -/
theorem mem_defects_iff (h : Reachable w d) (hdrawn : Drawn d.relationships) :
    defect ∈ defects d ↔ Possible d defect := by
  have hsingle : multipleInheritance d = [] := by
    rw [multipleInheritance_eq_nil h]
    intro c hc hkind htwo
    have hone := length_outgoing_le h hdrawn hc (by rcases hkind with hk | hk <;> simp [hk])
    omega
  have hcounts : multiplicities d = [] := by
    rw [multiplicities_eq_nil]
    intro r hr _
    obtain ⟨hsource, htarget⟩ := hdrawn.uncounted r hr
    simp [Acceptable, hsource, htarget]
  rw [defects, hsingle, hcounts, List.append_nil, List.append_nil, List.mem_append, List.mem_append,
    mem_duplicateNames]
  constructor
  · rintro ((⟨first, c, hlisted, hnamespace, hname, rfl⟩ | hcycle) | htarget)
    · exact .duplicate hlisted hnamespace hname
    · obtain ⟨c, hc, rfl⟩ := List.mem_map.mp hcycle
      obtain ⟨hc, hon⟩ := List.mem_filter.mp hc
      obtain ⟨other, hother, hne, hup, hback⟩ :=
        (cycle_iff h hdrawn.proper).mp ((isOnCycle_iff h hc).mp hon)
      exact .cycle hc hother hne hup hback
    · obtain ⟨r, hr, rfl⟩ := List.mem_map.mp htarget
      obtain ⟨hr, hkinds⟩ := List.mem_filter.mp hr
      obtain ⟨hkind, hcontract⟩ := Bool.and_eq_true_iff.mp hkinds
      obtain ⟨c, hc, hends⟩ := h.target_mem hr
      rw [← hends] at hcontract ⊢
      exact .target hr (beq_iff_eq.mp hkind) ⟨hc, congrArg EndpointOf.key hends⟩
        (bne_iff_ne.mp hcontract)
  · intro hpossible
    cases hpossible with
    | @duplicate first c listed inNamespace named =>
      exact .inl (.inl ⟨first, c, listed, inNamespace, named, rfl⟩)
    | @cycle c other mem mem' apart up back =>
      have hon := (isOnCycle_iff h mem).mpr ((cycle_iff h hdrawn.proper).mpr
        ⟨other, mem', apart, up, back⟩)
      exact .inl (.inr (List.mem_map_of_mem (List.mem_filter.mpr ⟨mem, hon⟩)))
    | @target r c mem kind leads contract =>
      obtain ⟨a, ha, hends⟩ := h.target_mem mem
      obtain rfl := h.tracked.eq_of_key leads.1 ha (leads.2.trans (congrArg EndpointOf.key hends.symm))
      refine .inr (List.mem_map.mpr ⟨r, List.mem_filter.mpr ⟨mem, ?_⟩, ?_⟩)
      · rw [← hends]
        exact Bool.and_eq_true_iff.mpr ⟨beq_iff_eq.mpr kind, bne_iff_ne.mpr contract⟩
      · rw [← hends]
        rfl

end Rules

end Validation

/-! ## Whole builds -/

namespace Assembly

open Inference (analyze Drawn)
open Validation (Possible)

/-- The edges that building a diagram infers from its classifiers, if it is to infer any. -/
def inferred (options : Options) (d : Diagram) (s : Supply) : List Relationship :=
  if options.infer then (analyze d options.searchOrder options.withSupertypes s).1.relationships else []

/-- A diagram after its classifiers got places, if they are to get any. -/
def placed (arrange : Bool) (d : Diagram) : Diagram := if arrange then d.arrange .standard else d

section Whole

variable {name : String} {records : List Java.TypeRecord} {options : Options} {s : Supply}

theorem joining_inferred {w : Identity String} {d : Diagram} (h : Reachable w d) :
    Joining d.classifiers (inferred options d s) ∧ Drawn (inferred options d s) := by
  unfold inferred
  cases options.infer with
  | false => exact ⟨⟨List.forall_mem_nil _, List.forall_mem_nil _, List.forall_mem_nil _, .nil⟩, .nil⟩
  | true => exact ⟨Inference.joining_analyze h .., Inference.drawn_analyze h ..⟩

/-- All edges that inference finds in a diagram without edges are merged into it. -/
theorem merge_analyze {w : Identity String} {d : Diagram} (h : Reachable w d)
    (hnone : d.relationships = []) (searchOrder : List String) (withSupertypes : Bool) :
    let found := (analyze d searchOrder withSupertypes s).1.relationships
    Inference.merge d found = ⟨d.withRelationships found, found.length, none⟩ := by
  intro found
  have hjoining : Joining d.classifiers found := Inference.joining_analyze h searchOrder withSupertypes
  have hlacking : Inference.lacking d found = found := by
    rw [Inference.lacking, hnone]
    simp
  rw [Inference.merge_joining h hjoining fun r _ => DiagramOf.holdsRelationship_of_nil hnone r.key,
    Inference.taken_eq_lacking h hjoining (Inference.drawn_analyze h searchOrder withSupertypes).distinct,
    hlacking]

/-- Building makes the diagram of the records, with all edges inferred from it. -/
theorem build_eq (name : String) (records : List Java.TypeRecord) (options : Options) (s : Supply) :
    ∃ s', build name records options s =
    .ok (placed options.arrange ((diagramOf name records s).withRelationships
      (inferred options (diagramOf name records s)
        (spent { s with drawn := s.drawn + 1 } records.length))), s') := by
  let bare := diagramOf name records s
  let rest := spent { s with drawn := s.drawn + 1 } records.length
  obtain ⟨infer, withSupertypes, searchOrder, arrange⟩ := options
  cases infer with
  | false =>
    refine ⟨rest, ?_⟩
    rw [build, ofRecords_eq, inferred, if_neg Bool.false_ne_true, DiagramOf.withRelationships_nil]
    rfl
  | true =>
    have hbare : Reachable (numbering { s with drawn := s.drawn + 1 } id id) bare :=
      reachable_diagramOf numbers_numbering
    have hmerged : mergedOrRefused (Inference.merge bare
        (analyze bare searchOrder withSupertypes rest).1.relationships) =
          .ok (bare.withRelationships (analyze bare searchOrder withSupertypes rest).1.relationships) := by
      rw [merge_analyze hbare relationships_diagramOf]
      rfl
    refine ⟨(analyze bare searchOrder withSupertypes rest).2, ?_⟩
    rw [build, ofRecords_eq]
    show (do
      let d ← mergedOrRefused (Inference.merge bare
        (analyze bare searchOrder withSupertypes rest).1.relationships)
      return (placed arrange d, (analyze bare searchOrder withSupertypes rest).2)) = _
    rw [hmerged]
    rfl

/-- However its classifiers are placed, the diagram of records can be reached, with its classifiers and
edges. -/
theorem reachable_placed {rs : List Relationship} (name : String) (arrange : Bool)
    (h : Joining (entered { s with drawn := s.drawn + 1 } records) rs) :
    let d := placed arrange ((diagramOf name records s).withRelationships rs)
    (∃ w, Reachable w d) ∧ List.Forall₂ Grid.Moved (diagramOf name records s).classifiers d.classifiers ∧
      d.relationships = rs := by
  have hmoved : ∃ cs', List.Forall₂ Grid.Moved (entered { s with drawn := s.drawn + 1 } records) cs' ∧
      placed arrange ((diagramOf name records s).withRelationships rs) =
        (withClassifiers (DiagramOf.empty name "" none none none s).1 cs').withRelationships rs := by
    cases arrange with
    | false => exact ⟨_, List.forall₂_same.mpr fun _ _ => rfl, rfl⟩
    | true =>
      obtain ⟨cs', hmoved, -, harranged⟩ := @Analysis.exists_arranged rs name records s
      exact ⟨cs', hmoved, harranged⟩
  obtain ⟨cs', hmoved, hplaced⟩ := hmoved
  dsimp only
  rw [hplaced, DiagramOf.relationships_withRelationships, relationships_withClassifiers rfl,
    DiagramOf.classifiers_withRelationships, classifiers_withClassifiers rfl, classifiers_diagramOf]
  exact ⟨Analysis.exists_reachable hmoved h, hmoved, rfl⟩

/-- Building never fails. The bare diagram has a classifier for each record, in their order; the result has
the same classifiers, perhaps in other places, and every edge that inference finds in the bare diagram. Each
class has one superclass at most, no edge leads back to its own start, and exactly the possible defects are
reported. -/
theorem build_defects (name : String) (records : List Java.TypeRecord) (options : Options)
    (s : Supply) : ∃ bare s' d s'', ofRecords name records s = .ok (bare, s') ∧
      List.Forall₂ Shows records bare.classifiers ∧
      build name records options s = .ok (d, s'') ∧
      List.Forall₂ Grid.Moved bare.classifiers d.classifiers ∧
      d.relationships = inferred options bare s' ∧
      (∀ c ∈ d.classifiers, c.kind ≠ .interface →
        (d.outgoing c.key (some .inheritance)).length ≤ 1) ∧
      (∀ r ∈ d.relationships, r.source.key ≠ r.target.key) ∧
      ∀ issue, issue ∈ d.validate ↔ ∃ defect, Possible d defect ∧ issue = defect.message := by
  let bare := diagramOf name records s
  let s' := spent { s with drawn := s.drawn + 1 } records.length
  have hbare : Reachable (numbering { s with drawn := s.drawn + 1 } id id) bare :=
    reachable_diagramOf numbers_numbering
  obtain ⟨hjoining, hdrawn⟩ : Joining bare.classifiers (inferred options bare s') ∧ _ :=
    joining_inferred hbare
  rw [classifiers_diagramOf] at hjoining
  obtain ⟨⟨w, hreach⟩, hmoved, hedges⟩ := reachable_placed name options.arrange hjoining
  rw [← hedges] at hdrawn
  obtain ⟨s'', hbuild⟩ := build_eq name records options s
  have hshown : List.Forall₂ Shows records bare.classifiers := by
    rw [classifiers_diagramOf]
    exact shows_entered
  refine ⟨bare, s', _, s'', ofRecords_eq, hshown, hbuild, hmoved, hedges,
    fun c hc hclass => Validation.length_outgoing_le hreach hdrawn hc hclass, hdrawn.proper,
    fun issue => ?_⟩
  rw [DiagramOf.validate, List.mem_map]
  exact exists_congr fun defect =>
    and_congr (Validation.mem_defects_iff hreach hdrawn) eq_comm

end Whole

end Assembly

end ClassAtlas
