import ClassAtlas.Proofs.RenewedResults
import ClassAtlas.Proofs.InferredEdges

/-! # What is found out about a diagram survives writing and reading

A renewed diagram holds other objects, but inference tells classifiers apart just as before and names
them by the same ids. So the report on a diagram that was read from its own document is the report on
the diagram, and with defects, picture and units the same holds: every value in what was read is a
text, so no use of it fails, and every use depends only on what a renewal keeps. -/

namespace ClassAtlas

open Document

variable {f : Nat → Nat} {t t' : Diagram} {c : Classifier}

/-! ## Reports -/

namespace Inference

def renewedReference (f : Nat → Nat) (r : Reference) : Reference := { r with owner := renewed f r.owner }

def Finding.renewed (f : Nat → Nat) : Finding → Finding
  | nothing => nothing
  | qualified c => qualified (Document.renewed f c)
  | only c => only (Document.renewed f c)
  | several name candidates chosen =>
    several name (candidates.map (Document.renewed f)) (Document.renewed f chosen)

def Edge.renewed (f : Nat → Nat) (e : Edge) : Edge :=
  ⟨Document.renewed f e.source, Document.renewed f e.target, e.kind⟩

variable {searchOrder : List String} {withSupertypes : Bool}

theorem target?_renewed (finding : Finding) :
    (finding.renewed f).target? = finding.target?.map (renewed f) := by
  cases finding <;> rfl

theorem prefer_renewed {cs cs' : List Classifier} (owner first : Classifier)
    (candidates : List Classifier) :
    (⟨cs', searchOrder⟩ : Scope).prefer (renewed f owner) (renewed f first)
        (candidates.map (renewed f)) =
      renewed f ((⟨cs, searchOrder⟩ : Scope).prefer owner first candidates) := by
  have hwithin : ∀ n, (candidates.map (renewed f)).find? (·.namespaceName == n) =
      (candidates.find? (·.namespaceName == n)).map (renewed f) := fun n => by
    rw [List.find?_map]
    simp only [Function.comp_def, namespaceName_renewed]
  have hsearch : ∀ ns : List String,
      ns.findSome? (fun n => (candidates.find? (·.namespaceName == n)).map (renewed f)) =
        (ns.findSome? fun n => candidates.find? (·.namespaceName == n)).map (renewed f) := by
    intro ns
    induction ns with
    | nil => rfl
    | cons n ns ih =>
      rw [List.findSome?_cons, List.findSome?_cons, ih]
      cases candidates.find? (·.namespaceName == n) <;> rfl
  unfold Scope.prefer
  simp only [hwithin, hsearch, namespaceName_renewed]
  rw [← Option.map_or, Option.getD_map]

theorem lookUp_renewed (cs : List Classifier) (owner : Classifier) (name : String) :
    (⟨cs.map (renewed f), searchOrder⟩ : Scope).lookUp (renewed f owner) name =
      ((⟨cs, searchOrder⟩ : Scope).lookUp owner name).renewed f := by
  have hnamed : (⟨cs.map (renewed f), searchOrder⟩ : Scope).named name =
      ((⟨cs, searchOrder⟩ : Scope).named name).map (renewed f) := by
    rw [Scope.named, Scope.named, List.filter_map]
    rfl
  unfold Scope.lookUp
  rw [hnamed]
  cases (⟨cs, searchOrder⟩ : Scope).named name with
  | nil => rfl
  | cons first others =>
    cases others with
    | nil => rfl
    | cons second others =>
      exact congrArg (Finding.several name _) (prefer_renewed owner first (first :: second :: others))

theorem find_renewed (cs : List Classifier) (owner : Classifier) (text : String) :
    (⟨cs.map (renewed f), searchOrder⟩ : Scope).find (renewed f owner) text =
      ((⟨cs, searchOrder⟩ : Scope).find owner text).renewed f := by
  have hqualified : ∀ name, (⟨cs.map (renewed f), searchOrder⟩ : Scope).qualified? name =
      ((⟨cs, searchOrder⟩ : Scope).qualified? name).map (renewed f) := by
    intro name
    rw [Scope.qualified?, Scope.qualified?, List.find?_map]
    simp only [Function.comp_def, qualifiedName_renewed]
  unfold Scope.find
  simp only [hqualified, lookUp_renewed]
  split
  · rfl
  · split
    · cases (⟨cs, searchOrder⟩ : Scope).qualified? (String.ofList (bareName text)) with
      | some c => rfl
      | none =>
        show ite _ _ _ = Finding.renewed f (ite _ _ _)
        split <;> rfl
    · rfl

theorem supertypes_renewed (c : Classifier) :
    supertypes (renewed f c) = (supertypes c).map (renewedReference f) := by
  have hsuperclass : (renewed f c).declaredSuperclass = given c.declaredSuperclass := by
    rw [renewed_eq]
  have hnonempty : ((given c.declaredSuperclass).toList.filter fun s => !s.isEmpty) =
      c.declaredSuperclass.toList.filter fun s => !s.isEmpty :=
    given_congr (fun t => t.toList.filter fun s => !s.isEmpty) rfl
  have hinterfaces : (renewed f c).declaredInterfaces = c.declaredInterfaces := by
    rw [renewed_eq]
  unfold supertypes
  rw [hsuperclass, hnonempty, hinterfaces, List.map_append, List.map_map, List.map_map]
  rfl

theorem fieldReferences_renewed (c : Classifier) :
    fieldReferences (renewed f c) = (fieldReferences c).map (renewedReference f) := by
  have hfields : (renewed f c).fields = c.fields.map fun d =>
      { d with defaultValue := given d.defaultValue } := by
    rw [renewed_eq]
  rw [fieldReferences, fieldReferences, hfields, List.flatMap_map, List.map_flatMap]
  refine congrArg (List.flatMap · c.fields) (funext fun d => ?_)
  rw [List.map_map]
  rfl

/-- An empty type refers to nothing. -/
theorem flatMap_given {α : Type} {use : String → List α} (hempty : use "" = [])
    (text? : Option String) : (given text?).toList.flatMap use = text?.toList.flatMap use :=
  given_congr (fun t => t.toList.flatMap use) (by simp [hempty])

theorem ofText_empty : Java.TypeNames.ofText "" = [] := by
  simp [Java.TypeNames.ofText, Java.TypeNames.scan, Java.TypeNames.distinct]

theorem signatureReferences_renewed (c : Classifier) :
    signatureReferences (renewed f c) = (signatureReferences c).map (renewedReference f) := by
  have hoperations : (renewed f c).operations =
      c.operations.map fun op => operationTexts (op.map Value.str) := by
    rw [renewed_eq]
  rw [signatureReferences, signatureReferences, hoperations, List.flatMap_map, List.map_flatMap]
  refine congrArg (List.flatMap · c.operations) (funext fun op => ?_)
  rw [operationTexts_map, signatureTypes, signatureTypes, List.flatMap_append, List.flatMap_append,
    List.map_append, flatMap_given (by rw [ofText_empty]; rfl), List.map_map, List.map_flatMap,
    List.map_flatMap]
  simp only [List.map_map]
  rfl

theorem references_renewed (cs : List Classifier) : references (cs.map (renewed f)) withSupertypes =
    (references cs withSupertypes).map (renewedReference f) := by
  have hpass : ∀ {own : Classifier → List Reference},
      (∀ c, own (renewed f c) = (own c).map (renewedReference f)) →
      (cs.map (renewed f)).flatMap own = (cs.flatMap own).map (renewedReference f) := by
    intro own hown
    rw [List.flatMap_map, List.map_flatMap]
    exact congrArg (List.flatMap · cs) (funext hown)
  rw [references, references, hpass supertypes_renewed, hpass fieldReferences_renewed,
    hpass signatureReferences_renewed, List.map_append, List.map_append]
  cases withSupertypes <;> rfl

/-! ### What references lead to -/

theorem edge?_renewed (h : Renewal f t t') {r : Reference} (hr : r.owner ∈ t.classifiers) :
    (renewedReference f r).edge? ⟨t'.classifiers, searchOrder⟩ =
      (r.edge? ⟨t.classifiers, searchOrder⟩).map (Edge.renewed f) := by
  rw [h.classifiers]
  unfold Reference.edge? Scope.resolve
  rw [renewedReference, find_renewed, target?_renewed]
  cases hfound : ((⟨t.classifiers, searchOrder⟩ : Scope).find r.owner r.text).target? with
  | none => rfl
  | some target =>
    have htarget : target ∈ t.classifiers := Scope.resolve_mem hfound
    have hkey := h.key_beq (Rekeyed.known hr) (Rekeyed.known htarget)
    show ite ((f r.owner.toEndpoint.key == f target.toEndpoint.key) = true) none _ =
      Option.map _ (ite _ none _)
    rw [hkey]
    show ite ((r.owner.key == target.key) = true) none _ = _
    split <;> rfl

theorem ambiguity?_renewed (cs : List Classifier) (r : Reference) :
    (renewedReference f r).ambiguity? ⟨cs.map (renewed f), searchOrder⟩ =
      r.ambiguity? ⟨cs, searchOrder⟩ := by
  unfold Reference.ambiguity?
  rw [renewedReference, find_renewed]
  cases (⟨cs, searchOrder⟩ : Scope).find r.owner r.text with
  | several name candidates chosen =>
    simp only [Finding.renewed, List.map_map, Function.comp_def, qualifiedName_renewed]
    rfl
  | _ => rfl

theorem unresolved?_renewed (cs : List Classifier) (r : Reference) :
    (renewedReference f r).unresolved? ⟨cs.map (renewed f), searchOrder⟩ =
      r.unresolved? ⟨cs, searchOrder⟩ := by
  unfold Reference.unresolved? Scope.resolve
  rw [renewedReference, find_renewed, target?_renewed]
  cases r.use with
  | supertype relation kind =>
    cases ((⟨cs, searchOrder⟩ : Scope).find r.owner r.text).target? <;>
      simp only [Option.map_none, Option.map_some, qualifiedName_renewed]
  | _ => rfl

/-- Reports that agree, with relationships named by the ids of their ends. -/
structure SameReport (report report' : Report) : Prop where
  relationships : report'.relationships.map identity = report.relationships.map identity
  ambiguities : report'.ambiguities = report.ambiguities
  unresolved : report'.unresolved = report.unresolved

theorem identity_enrolAll (es : List Edge) (supply : Supply) :
    (enrolAll supply es).1.map identity = es.map Edge.identity := by
  have hends : (enrolAll supply es).1.map (fun r => (r.source, r.target, r.kind)) = es.map Edge.ends :=
    enrolAll_ends
  have hids := congrArg (List.map fun ends => (ends.1.id, ends.2.1.id, ends.2.2)) hends
  rwa [List.map_map, List.map_map] at hids

/-- The report on a renewed diagram agrees with the report on the diagram. -/
theorem analyze_renewed (h : Renewal f t t') (searchOrder : List String) (withSupertypes : Bool)
    (supply supply' : Supply) :
    SameReport (analyze t searchOrder withSupertypes supply).1
      (analyze t' searchOrder withSupertypes supply').1 := by
  have hreferences : references t'.classifiers withSupertypes =
      (references t.classifiers withSupertypes).map (renewedReference f) := by
    rw [h.classifiers, references_renewed]
  have hedges : edges ⟨t'.classifiers, searchOrder⟩ (references t'.classifiers withSupertypes) =
      (edges ⟨t.classifiers, searchOrder⟩ (references t.classifiers withSupertypes)).map
        (Edge.renewed f) := by
    have hcalled : (references t'.classifiers withSupertypes).filterMap
          (·.edge? ⟨t'.classifiers, searchOrder⟩) =
        ((references t.classifiers withSupertypes).filterMap
          (·.edge? ⟨t.classifiers, searchOrder⟩)).map (Edge.renewed f) := by
      rw [hreferences, List.filterMap_map, List.map_filterMap]
      exact List.filterMap_congr fun r hr => edge?_renewed h (owner_of_mem_references hr)
    rw [edges, edges, hcalled]
    exact firstBy_map (fun e => rfl) [] _
  refine ⟨?_, ?_, ?_⟩
  · show (enrolAll supply' _).1.map identity = (enrolAll supply _).1.map identity
    rw [identity_enrolAll, identity_enrolAll, hedges, List.map_map]
    rfl
  · show ambiguities _ _ = ambiguities _ _
    rw [ambiguities, ambiguities, hreferences, List.filterMap_map, h.classifiers]
    simp only [Function.comp_def, ambiguity?_renewed]
  · show List.filterMap _ (references t'.classifiers withSupertypes) = List.filterMap _ _
    rw [hreferences, List.filterMap_map, h.classifiers]
    simp only [Function.comp_def, unresolved?_renewed]

end Inference

/-! ## Values that serve -/

namespace Document

/-- Every value in the diagram is a text. -/
structure Textual (d : DiagramOf Value) : Prop where
  name : ∃ text, d.name = .str text
  classifiers : ∀ c ∈ d.classifiers, ∃ text : Classifier, c = text.map Value.str
  relationships : ∀ r ∈ d.relationships, ∃ text : Relationship, r = text.map Value.str

section Serving

variable {d : DiagramOf Value}

theorem forM_eq_ok {α : Type} {use : α → Except Misuse Unit} {xs : List α} :
    xs.forM use = .ok () ↔ ∀ x ∈ xs, use x = .ok () := by
  induction xs with
  | nil => exact iff_of_true rfl (List.forall_mem_nil _)
  | cons x xs ih =>
    rw [List.forall_mem_cons, ← ih]
    show (use x >>= fun _ => xs.forM use) = .ok () ↔ _
    cases use x with
    | error m => exact iff_of_false nofun fun h => nomatch h.1
    | ok u => exact (and_iff_right rfl).symm

theorem forM_ok {α : Type} (xs : List α) : (forM xs fun _ => .ok () : Except Misuse Unit) = .ok () :=
  forM_eq_ok.mpr fun _ _ => rfl

theorem needText_str (text : String) : needText (.str text) = .ok () := rfl

theorem needTextIfPresent_str (text : String) : needTextIfPresent (.str text) = .ok () := by
  unfold needTextIfPresent
  split <;> rfl

theorem needTextIn_str (text? : Option String) : needTextIn (text?.map Value.str) = .ok () := by
  cases text? with
  | none => rfl
  | some text => exact needTextIfPresent_str text

theorem needJoined_eq_ok {vs : List Value} :
    needJoined vs = .ok () ↔ ∀ v ∈ vs, ∃ text, v = .str text := by
  have hplaced : (∀ v ∈ vs, ∃ text, v = .str text) ↔
      ∀ placed ∈ vs.zipIdx, ∃ text, placed.1 = .str text := by
    have hvalues : ∀ v, v ∈ vs.zipIdx.map Prod.fst ↔ v ∈ vs := by
      simp [List.zipIdx_map_fst]
    simp only [← hvalues, List.forall_mem_map]
  rw [needJoined, forM_eq_ok, hplaced]
  refine forall₂_congr fun placed _ => ?_
  obtain ⟨v, place⟩ := placed
  cases v <;> simp

/-- Of a phrase only the words that are not void have to be texts. -/
theorem needPhrase_eq_ok {words : List String} {vs : List Value} : needPhrase words vs = .ok () ↔
    ∀ v ∈ vs, v.isTruthy = true → ∃ text, v = .str text := by
  rw [needPhrase, needJoined_eq_ok]
  constructor
  · exact fun h v hv htruthy => h v (List.mem_filter.mpr ⟨List.mem_append_right _ hv, htruthy⟩)
  · intro h v hv
    obtain ⟨hv, htruthy⟩ := List.mem_filter.mp hv
    rcases List.mem_append.mp hv with hword | hv
    · obtain ⟨word, -, rfl⟩ := List.mem_map.mp hword
      exact ⟨word, rfl⟩
    · exact h v hv htruthy

theorem exists_edge_of_listed {c : ClassifierOf Value} {e : EndpointOf Value}
    (h : e ∈ listedParents d c) : ∃ r ∈ d.relationships, r.target = e := by
  have hparent : e ∈ Validation.parentsOf (Validation.parents d) c.id := by
    unfold listedParents at h
    dsimp only at h
    split at h
    · exact h
    · cases h
  obtain ⟨edge, hedge, rfl⟩ := List.mem_map.mp hparent
  obtain ⟨r, hr, rfl⟩ := List.mem_map.mp (List.mem_of_mem_filter hedge)
  exact ⟨r, List.mem_of_mem_filter hr, rfl⟩

theorem qualifiedValue_map (e : Endpoint) : ∃ text, qualifiedValue (e.map Value.str) = .str text := by
  unfold qualifiedValue
  split
  · exact ⟨e.name, rfl⟩
  · exact ⟨_, rfl⟩

theorem Textual.validate_eq (h : Textual d) : validate d = .ok d.validate := by
  have hnames : (d.classifiers.forM fun c => do
      needHashable c.namespaceName
      needHashable c.name) = .ok () := forM_eq_ok.mpr fun c hc => by
    obtain ⟨c, rfl⟩ := h.classifiers c hc
    rfl
  have hparents : (d.classifiers.forM fun c => needJoined ((listedParents d c).map qualifiedValue)) =
      .ok () := forM_eq_ok.mpr fun c hc => needJoined_eq_ok.mpr fun v hv => by
    obtain ⟨e, he, rfl⟩ := List.mem_map.mp hv
    obtain ⟨r, hr, rfl⟩ := exists_edge_of_listed he
    obtain ⟨r, rfl⟩ := h.relationships r hr
    exact qualifiedValue_map r.target
  have hcounts : ((d.relationships.filter (·.kind.isStructural)).forM fun r => do
      needTextIn r.sourceMultiplicity
      needTextIn r.targetMultiplicity) = .ok () := forM_eq_ok.mpr fun r hr => by
    obtain ⟨r, rfl⟩ := h.relationships r (List.mem_of_mem_filter hr)
    simp only [RelationshipOf.map, needTextIn_str]
    rfl
  unfold validate
  rw [hnames, hparents, hcounts]
  rfl

theorem Textual.render_eq (h : Textual d) : render d = .ok (PlantUml.render (texts d)) := by
  obtain ⟨name, hname⟩ := h.name
  unfold render
  rw [hname, needTextIfPresent_str, forM_eq_ok.mpr, forM_eq_ok.mpr, forM_eq_ok.mpr, forM_eq_ok.mpr]
  · rfl
  · intro r hr
    obtain ⟨r, rfl⟩ := h.relationships r hr
    simp only [RelationshipOf.map, needTextIn_str]
    rfl
  · intro c hc
    obtain ⟨c, rfl⟩ := h.classifiers c hc
    simp [ClassifierOf.map, OperationOf.map, ParameterOf.map, FieldOf.map, forM_ok, needText_str,
      needTextIn_str, needTextIfPresent_str, ok_bind]
  · intro c hc
    obtain ⟨c, rfl⟩ := h.classifiers c hc
    rfl
  · intro c hc
    obtain ⟨c, rfl⟩ := h.classifiers c hc
    rfl

theorem needSplit_str (text : String) : needSplit (.str text) = .ok () := rfl

theorem checkPath_map (c : Classifier) : checkPath (c.map Value.str) = .ok () := by
  unfold checkPath
  show (if (Value.str c.namespaceName).isTruthy = true then (.ok () : Except Misuse Unit) else .ok ()) =
    .ok ()
  exact ite_self _

theorem Textual.checkText_eq (h : Textual d) (c : Classifier) :
    checkText (c.map Value.str) d.relationships (d.classifiers.map (·.toEndpoint)) = .ok () := by
  have hnames : ((d.classifiers.map (·.toEndpoint)).forM fun other => needHashable other.name) = .ok () :=
    forM_eq_ok.mpr fun other hother => by
      obtain ⟨c, hc, rfl⟩ := List.mem_map.mp hother
      obtain ⟨c, rfl⟩ := h.classifiers c hc
      rfl
  have htargets : ∀ p, needJoined ((d.relationships.filter p).map (·.target.name)) = .ok () := by
    refine fun p => needJoined_eq_ok.mpr fun v hv => ?_
    obtain ⟨r, hr, rfl⟩ := List.mem_map.mp hv
    obtain ⟨r, rfl⟩ := h.relationships r (List.mem_of_mem_filter hr)
    exact ⟨r.target.name, rfl⟩
  have hheader : ∀ words, needPhrase words [.str c.name] = .ok () := fun _ =>
    needPhrase_eq_ok.mpr (by simp)
  have hmember : ∀ words, ∀ f : Field, needPhrase words [.str f.typeName, .str f.name] = .ok () :=
    fun _ f => needPhrase_eq_ok.mpr (by simp)
  have hliterals : needJoined (c.literals.map Value.str) = .ok () := needJoined_eq_ok.mpr (by simp)
  unfold checkText checkImports needClassName
  rw [hnames, htargets]
  simp [ClassifierOf.map, OperationOf.map, ParameterOf.map, FieldOf.map, forM_ok, needTextIn_str,
    needTextIfPresent_str, hheader, hmember, hliterals]
  exact fun _ => rfl

theorem Textual.units_eq (h : Textual d) (style : Java.UnitStyle) :
    units style d = .ok (Java.units style d) := by
  unfold units
  rw [forM_eq_ok.mpr]
  · rfl
  · intro c hc
    obtain ⟨c, rfl⟩ := h.classifiers c hc
    rw [checkPath_map, h.checkText_eq]
    rfl

theorem Textual.analyze_eq (h : Textual d) (searchOrder : List String) (withSupertypes : Bool)
    (supply : Supply) : analyze d searchOrder withSupertypes supply =
      .ok (Inference.analyze (texts d) searchOrder withSupertypes supply) := by
  have hnames : (d.classifiers.forM fun c => needHashable c.name) = .ok () := forM_eq_ok.mpr fun c hc => by
    obtain ⟨c, rfl⟩ := h.classifiers c hc
    rfl
  unfold analyze
  rw [hnames, forM_eq_ok.mpr, forM_eq_ok.mpr, forM_eq_ok.mpr]
  · cases withSupertypes <;> rfl
  · intro c hc
    obtain ⟨c, rfl⟩ := h.classifiers c hc
    have hinterfaces : (c.declaredInterfaces.map Value.str).forM needSplit = .ok () := by
      simp [needSplit_str, forM_ok]
    cases hv : (c.map Value.str).declaredSuperclass.filter (·.isTruthy) with
    | none => exact hinterfaces
    | some v =>
      obtain ⟨text, -, rfl⟩ := Option.map_eq_some_iff.mp (Option.filter_eq_some_iff.mp hv).1
      exact hinterfaces
  · intro c hc
    obtain ⟨c, rfl⟩ := h.classifiers c hc
    simp [ClassifierOf.map, OperationOf.map, ParameterOf.map, forM_ok, needTextIn_str,
      needTextIfPresent_str]
  · intro c hc
    obtain ⟨c, rfl⟩ := h.classifiers c hc
    simp [ClassifierOf.map, FieldOf.map, forM_ok, needTextIfPresent_str]

end Serving

/-! ## The results of a diagram that was read back -/

section Surviving

open Store (Identified withBackground)

variable {w : Identity String} {d : DiagramOf Value} {s : Supply}

/-- Everything that is found out about a diagram of texts is found out about the other diagram. -/
structure SameResults (t : Diagram) (d : DiagramOf Value) : Prop where
  validate : validate d = .ok t.validate
  render : render d = .ok (PlantUml.render t)
  units : ∀ style, units style d = .ok (Java.units style t)
  analyze : ∀ searchOrder withSupertypes supply supply', ∃ report supply'',
    analyze d searchOrder withSupertypes supply = .ok (report, supply'') ∧
      Inference.SameReport (Inference.analyze t searchOrder withSupertypes supply').1 report

/-- A copy holds texts. -/
theorem Copy.textual (h : Copy f t d) : Textual d where
  name := ⟨t.name, h.name⟩
  classifiers c hc := by
    rw [h.classifiers] at hc
    obtain ⟨c, -, rfl⟩ := List.mem_map.mp hc
    exact ⟨{ c with key := f c.key }, rfl⟩
  relationships r' hr' := by
    obtain ⟨r, -, hr⟩ := exists_of_forall₂ h.relationships hr'
    refine ⟨{ r with key := r'.key, source := renewedEnd f r.source, target := renewedEnd f r.target }, ?_⟩
    rw [hr.rest]
    rfl

theorem sameResults_of_copy (h : Copy f t d) : SameResults t d where
  validate := by rw [h.textual.validate_eq, Validation.validate_copied h]
  render := by rw [h.textual.render_eq, PlantUml.render_renewed h.texts]
  units style := by rw [h.textual.units_eq, Java.units_copied h]
  analyze searchOrder withSupertypes supply supply' :=
    ⟨_, _, h.textual.analyze_eq searchOrder withSupertypes supply,
      Inference.analyze_renewed h.texts searchOrder withSupertypes supply' supply⟩

/-- All results of a diagram are those of the diagram that its document was read as. -/
theorem sameResults_of_restores (h : Reachable w t) {s' : Supply} (hread : Makes (read (write t)) s d s')
    (hrestores : Restores ((withBackground t).map Value.str) d) : SameResults t d := by
  have hreach := Store.reachable_withBackground h
  obtain ⟨-, harranged⟩ := arranged_of_read hread
  obtain ⟨f, hcopy⟩ := copy_of_restores hreach hrestores harranged
  have hsame : Copy f t d := ⟨⟨hcopy.apart, hcopy.sources, hcopy.targets⟩, hcopy.name,
    hcopy.classifiers, hcopy.relationships⟩
  exact sameResults_of_copy hsame

/-- Reading the document of a reachable diagram whose elements have ids succeeds, and all results of
the diagram that was read are those of the diagram that was written. -/
theorem results_survive (h : Reachable w t) (hids : Identified t) (s : Supply) :
    ∃ d s', Makes (read (write t)) s d s' ∧ s'.drawn = s.drawn ∧ SameResults t d := by
  obtain ⟨d, s', hread, hdrawn, hrestores⟩ := Store.restored_identified h hids s
  exact ⟨d, s', hread, hdrawn, sameResults_of_restores h hread hrestores⟩

/-- A class that inherits from itself before another class, with an empty text for a return type. -/
theorem results_survive_blank :
    let shape := { bareClass 0 "s" with operations := [{ name := "draw", returnType := some "" }] }
    let group := bareClass 1 "g"
    let loop := bareEdge 0 shape shape .inheritance
    let w : Identity String := ⟨fun key => if key = 0 then "s" else "g", fun _ => 0, fun _ => 0⟩
    let t : Diagram := { (DiagramOf.empty "shapes" "" none none none {}).1 with
      elements := [.classifier shape, .relationship loop, .classifier group]
      index := [("s", 0), ("g", 1)] }
    Reachable w t ∧ Identified t ∧
      ∃ d s', Makes (read (write t)) {} d s' ∧ s'.drawn = 0 ∧ SameResults t d := by
  intro shape group loop w t
  have hreach : Reachable w t := by
    have hnew : Reachable w (DiagramOf.empty "shapes" "" none none none {}).1 := .new ..
    have hshape := hnew.withClassifier (c := shape) rfl rfl
    have hmem : shape ∈ [shape] := List.mem_cons_self
    have hloop := hshape.withRelationship (r := loop) hmem hmem rfl rfl ⟨rfl, rfl⟩ rfl rfl
    exact hloop.withClassifier (c := group) rfl rfl
  have hids : Identified t := by
    show ∀ e ∈ [ElementOf.classifier shape, .relationship loop, .classifier group], e.id ≠ ""
    simp [shape, group, loop, bareClass, bareEdge, ElementOf.id]
  exact ⟨hreach, hids, results_survive hreach hids {}⟩

end Surviving

end Document

end ClassAtlas
