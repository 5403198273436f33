import ClassAtlas.Proofs.RenewedDiagrams

/-! # Defects, pictures and units of copied diagrams

Whoever looks for defects, draws a diagram or generates its units compares keys only to tell classifiers
apart, takes each sort of element in its order, and takes an empty text in an optional slot for none.
Defects and units are found among values in place of texts as among the texts. So all three come out the
same for a copy of a diagram as for the diagram itself. -/

namespace ClassAtlas

open Document

variable {f : Nat → Nat} {t t' : Diagram} {d : DiagramOf Value} {r : Relationship}
  {r' : RelationshipOf Value} {c : Classifier}

/-! ## Members -/

section Members

theorem parameterTexts_map (p : Parameter) :
    parameterTexts (p.map Value.str) = { p with defaultValue := given p.defaultValue } := by
  rw [parameterTexts, ParameterOf.map, optionalText_str]
  rfl

theorem fieldTexts_map (d : Field) :
    fieldTexts (d.map Value.str) = { d with defaultValue := given d.defaultValue } := by
  rw [fieldTexts, FieldOf.map, optionalText_str, present_str]
  rfl

theorem operationTexts_map (op : Operation) : operationTexts (op.map Value.str) =
    { op with
      returnType := given op.returnType
      parameters := op.parameters.map fun p => { p with defaultValue := given p.defaultValue } } := by
  rw [operationTexts, OperationOf.map, optionalText_str, List.map_map]
  simp only [Function.comp_def, parameterTexts_map]
  rfl

theorem renewed_eq (f : Nat → Nat) (c : Classifier) : renewed f c =
    { c with
      key := f c.key
      fields := c.fields.map fun d => { d with defaultValue := given d.defaultValue }
      operations := c.operations.map fun op => operationTexts (op.map Value.str)
      declaredSuperclass := given c.declaredSuperclass } := by
  have hshown : ∀ s : String, (Value.str s).shown = s := fun _ => rfl
  simp only [renewed, copied, classifierTexts, ClassifierOf.map, optionalText_str, present_str,
    List.map_map, Function.comp_def, fieldTexts_map, hshown, List.map_id']

theorem namespaceName_renewed (f : Nat → Nat) (c : Classifier) :
    (renewed f c).namespaceName = c.namespaceName := present_str

theorem qualifiedName_renewed (f : Nat → Nat) (c : Classifier) :
    (renewed f c).qualifiedName = c.qualifiedName := by
  rw [ClassifierOf.qualifiedName, namespaceName_renewed]
  rfl

end Members

/-! ## Defects -/

namespace Validation

theorem qualifiedName_copied (f : Nat → Nat) (c : Classifier) :
    (copied f c).qualifiedName = c.qualifiedName := qualify_str

theorem qualifiedName_copiedEnd (f : Nat → Nat) (e : Endpoint) :
    (copiedEnd f e).qualifiedName = e.qualifiedName := qualify_str

/-- An edge of the search between copied classifiers. -/
def copiedParent (f : Nat → Nat) (e : Parent String) : Parent Value := (.str e.1, copiedEnd f e.2)

theorem parents_copied (h : Copy f t d) : parents d = (parents t).map (copiedParent f) := by
  rw [parents, parents, List.map_map]
  refine filter_map_eq h.relationships (fun r r' hr => ?_) fun r r' hr => ?_
  · rw [hr.rest]
    rfl
  · rw [hr.rest]
    rfl

theorem parentsOf_copied (f : Nat → Nat) (edges : List (Parent String)) (id : String) :
    parentsOf (edges.map (copiedParent f)) (.str id) = (parentsOf edges id).map (copiedEnd f) := by
  rw [parentsOf, parentsOf, List.filter_map, List.map_map, List.map_map]
  simp only [Function.comp_def, copiedParent, str_finds]

theorem apartFrom_copied (f : Nat → Nat) (edges : List (Parent String)) (id : String) :
    apartFrom (edges.map (copiedParent f)) (.str id) = (apartFrom edges id).map (copiedParent f) := by
  rw [apartFrom, apartFrom, List.filter_map]
  simp only [Function.comp_def, copiedParent, str_finds]

/-- Whom a search reaches does not depend on the keys, as long as they tell classifiers apart. -/
theorem reaches_copied (h : Rekeyed f t) {goal : Endpoint} {edges : List (Parent String)}
    {pending : List Endpoint} (hgoal : Rekeyed.Known t goal)
    (hedges : ∀ e ∈ edges, Rekeyed.Known t e.2) (hpending : ∀ e ∈ pending, Rekeyed.Known t e) :
    reaches (f goal.key) (edges.map (copiedParent f)) (pending.map (copiedEnd f)) =
      reaches goal.key edges pending := by
  fun_induction reaches goal.key edges pending with
  | case1 edges => rw [List.map_nil, reaches]
  | case2 edges here pending hkey =>
    rw [List.map_cons, reaches, if_pos]
    rwa [copiedEnd, h.key_beq (hpending _ List.mem_cons_self) hgoal]
  | case3 edges here pending hkey ih =>
    have hnext : ∀ e ∈ parentsOf edges here.id ++ pending, Rekeyed.Known t e := by
      intro e he
      rcases List.mem_append.mp he with he | he
      · obtain ⟨edge, hedge, rfl⟩ := List.mem_map.mp he
        exact hedges edge (List.mem_of_mem_filter hedge)
      · exact hpending e (List.mem_cons_of_mem _ he)
    rw [← ih (fun e he => hedges e (List.mem_of_mem_filter he)) hnext, List.map_cons, reaches, if_neg,
      List.map_append, ← apartFrom_copied, ← parentsOf_copied]
    · rfl
    · rwa [copiedEnd, h.key_beq (hpending _ List.mem_cons_self) hgoal]

theorem parents_known (h : Rekeyed f t) : ∀ e ∈ parents t, Rekeyed.Known t e.2 := by
  intro e he
  obtain ⟨r, hr, rfl⟩ := List.mem_map.mp he
  exact h.targets r (List.mem_of_mem_filter hr)

theorem isOnCycle_copied (h : Copy f t d) (hc : c ∈ t.classifiers) :
    isOnCycle (parents d) (copied f c) = isOnCycle (parents t) c := by
  have hid : (copied f c).id = .str c.id := rfl
  have hkey : (copied f c).key = f c.toEndpoint.key := rfl
  rw [isOnCycle, isOnCycle, hid, hkey, parents_copied h, parentsOf_copied]
  refine reaches_copied h.toRekeyed (Rekeyed.known hc) (parents_known h.toRekeyed) fun e he => ?_
  obtain ⟨edge, hedge, rfl⟩ := List.mem_map.mp he
  exact parents_known h.toRekeyed edge (List.mem_of_mem_filter hedge)

theorem repeated_map {κ κ' α : Type} [BEq κ] [BEq κ'] {g : κ → κ'}
    (hg : ∀ a b, (g a == g b) = (a == b)) (seen : List κ) (entries : List (κ × α)) :
    repeated (seen.map g) (entries.map fun e => (g e.1, e.2)) = repeated seen entries := by
  induction entries generalizing seen with
  | nil => rfl
  | cons e rest ih =>
    have hseen : (seen.map g).contains (g e.1) = seen.contains e.1 := by
      induction seen with
      | nil => rfl
      | cons k seen ihs => rw [List.map_cons, List.contains_cons, List.contains_cons, hg, ihs]
    rw [List.map_cons, repeated, repeated, hseen, ih, ← List.map_cons, ih]

theorem duplicateNames_copied (h : Copy f t d) : duplicateNames d = duplicateNames t := by
  let g : String × String → Value × Value := fun key => (.str key.1, .str key.2)
  have hg : ∀ a b, (g a == g b) = (a == b) := by
    intro a b
    show ((Value.str a.1 == .str b.1) && (Value.str a.2 == .str b.2)) = _
    rw [str_finds, str_finds]
    rfl
  rw [duplicateNames, duplicateNames, h.classifiers, ← repeated_map hg, List.map_map, List.map_map]
  simp only [Function.comp_def, qualifiedName_copied]
  rfl

theorem inheritanceCycles_copied (h : Copy f t d) : inheritanceCycles d = inheritanceCycles t := by
  rw [inheritanceCycles, inheritanceCycles, h.classifiers, List.filter_map, List.map_map]
  simp only [Function.comp_def, qualifiedName_copied]
  refine congrArg (List.map _) (List.filter_congr fun c hc => ?_)
  exact isOnCycle_copied h hc

theorem multipleInheritance_copied (h : Copy f t d) :
    multipleInheritance d = multipleInheritance t := by
  rw [multipleInheritance, multipleInheritance, h.classifiers, List.filterMap_map]
  refine congrArg (List.filterMap · t.classifiers) (funext fun c => ?_)
  have hid : (copied f c).id = .str c.id := rfl
  have hkind : (copied f c).kind = c.kind := rfl
  simp only [Function.comp_apply, hid, hkind, parents_copied h, parentsOf_copied, List.length_map,
    List.map_map, Function.comp_def, qualifiedName_copied, qualifiedName_copiedEnd]

theorem implementationTargets_copied (h : Copy f t d) :
    implementationTargets d = implementationTargets t := by
  refine filter_map_eq h.relationships (fun r r' hr => ?_) fun r r' hr => ?_
  · rw [hr.rest]
    rfl
  · rw [hr.rest]
    simp only [qualifiedName_copiedEnd]

theorem endDefect_copied (hr : CopiedEdge f r r') (side : Side) (text? : Option String) :
    endDefect r' side (text?.map Value.str) = endDefect r side text? := by
  cases text? with
  | none => rfl
  | some text =>
    rw [hr.rest, Option.map_some, endDefect, endDefect, isVoid_str]
    simp only [qualifiedName_copiedEnd]
    rfl

theorem multiplicities_copied (h : Copy f t d) : multiplicities d = multiplicities t := by
  rw [multiplicities, multiplicities, List.flatMap_def, List.flatMap_def]
  refine congrArg List.flatten (filter_map_eq h.relationships (fun r r' hr => ?_) fun r r' hr => ?_)
  · rw [hr.rest]
    rfl
  · have hsource : r'.sourceMultiplicity = r.sourceMultiplicity.map .str := by rw [hr.rest]; rfl
    have htarget : r'.targetMultiplicity = r.targetMultiplicity.map .str := by rw [hr.rest]; rfl
    rw [hsource, htarget, endDefect_copied hr, endDefect_copied hr]

theorem validate_copied (h : Copy f t d) : d.validate = t.validate := by
  rw [DiagramOf.validate, DiagramOf.validate, defects, defects, duplicateNames_copied h,
    inheritanceCycles_copied h, multipleInheritance_copied h, implementationTargets_copied h,
    multiplicities_copied h]

end Validation

/-! ## Pictures -/

namespace PlantUml

theorem operationLine_renewed (op : Operation) :
    operationLine (operationTexts (op.map Value.str)) = operationLine op := by
  rw [operationTexts_map]
  refine Eq.trans ?_ (given_congr (fun t => operationLine { op with returnType := t }) rfl)
  simp only [operationLine, List.map_map]
  rfl

theorem classifierLines_renewed (c : Classifier) (aliasName : String) :
    classifierLines (renewed f c) aliasName = classifierLines c aliasName := by
  have hfields : (c.fields.map fun d => { d with defaultValue := given d.defaultValue }).map fieldLine =
      c.fields.map fieldLine := by
    rw [List.map_map]
    rfl
  have hoperations : (c.operations.map fun op => operationTexts (op.map Value.str)).map operationLine =
      c.operations.map operationLine := by
    rw [List.map_map]
    exact List.map_congr_left fun op _ => operationLine_renewed op
  rw [renewed_eq]
  simp only [classifierLines, hfields, hoperations, List.isEmpty_map]
  rfl

theorem relationshipLine_renewed {aliasOf : String → String} {r' : Relationship}
    (hr : RenewedEdge f r r') :
    relationshipLine aliasOf r' = relationshipLine aliasOf r := by
  have hrole : relationshipLine aliasOf { r with targetRole := given r.targetRole } =
      relationshipLine aliasOf r :=
    given_congr (fun t => relationshipLine aliasOf { r with targetRole := t }) rfl
  rw [hr.rest, ← hrole]
  simp only [relationshipLine, relationshipTexts, RelationshipOf.map, optionalText_str,
    given_congr (multiplicity _ _) rfl]
  rfl

theorem aliased_renewed (h : Renewal f t t') :
    aliased t' = (aliased t).map fun p => (renewed f p.1, p.2) := by
  rw [aliased, aliased, h.classifiers, List.zipIdx_map, List.map_map, List.map_map]
  rfl

theorem aliasOf_renewed (h : Renewal f t t') : aliasOf t' = aliasOf t := by
  funext id
  rw [aliasOf, aliasOf, aliased_renewed h, List.find?_map, Option.map_map]
  rfl

theorem packageLines_renewed (h : Renewal f t t') (namespaceName : String) :
    packageLines t' namespaceName = packageLines t namespaceName := by
  rw [packageLines, packageLines, aliased_renewed h, List.filter_map, List.flatMap_map]
  simp only [classifierLines_renewed, Function.comp_def, namespaceName_renewed]

theorem namespaces_renewed (h : Renewal f t t') : namespaces t' = namespaces t := by
  rw [namespaces, namespaces, h.classifiers, List.map_map]
  simp only [Function.comp_def, namespaceName_renewed]

theorem render_renewed (h : Renewal f t t') : render t' = render t := by
  have hrelationships : t'.relationships.map (relationshipLine (aliasOf t)) =
      t.relationships.map (relationshipLine (aliasOf t)) :=
    map_eq_of_forall₂ h.relationships fun _ _ => relationshipLine_renewed
  rw [render, render, lines, lines, h.name, namespaces_renewed h, aliasOf_renewed h, hrelationships]
  simp only [List.flatMap_def, List.map_congr_left fun n _ => packageLines_renewed h n]

end PlantUml

/-! ## Units -/

namespace Java

theorem defaultText_map (before after : String) (text? : Option String) :
    defaultText before after (text?.map Value.str) = defaultText before after text? := by
  cases text? with
  | none => rfl
  | some text =>
    rw [Option.map_some, defaultText, defaultText, isVoid_str]
    rfl

theorem fieldLines_map (d : Field) (indent : String) :
    fieldLines (d.map Value.str) indent = fieldLines d indent := by
  rw [fieldLines_string]
  simp only [fieldLines, FieldOf.map, present_str, defaultText_map]
  rfl

theorem parameterText_map (p : Parameter) : parameterText (p.map Value.str) = parameterText p := by
  simp only [parameterText, ParameterOf.map, defaultText_map]
  rfl

theorem returnWord_map (op : Operation) : returnWord (op.map Value.str) = returnWord op := by
  unfold returnWord OperationOf.map
  cases op.returnType with
  | none => rfl
  | some t =>
    dsimp only [Option.map_some]
    rw [isVoid_str]
    rfl

theorem signature_map (op : Operation) : signature (op.map Value.str) = signature op := by
  have hparameters : (op.map Value.str).parameters.map parameterText = op.parameters.map parameterText := by
    rw [OperationOf.map, List.map_map]
    exact List.map_congr_left fun p _ => parameterText_map p
  rw [signature, signature, hparameters, returnWord_map]
  rfl

theorem operationTags_map (op : Operation) : operationTags (op.map Value.str) = operationTags op := by
  rw [operationTags, operationTags, returnWord_map, OperationOf.map, List.map_map]
  rfl

theorem operationLines_map (op : Operation) (owner : ClassifierKind) (indent : String) :
    operationLines (op.map Value.str) owner indent = operationLines op owner indent := by
  rw [operationLines, operationLines, signature_map, operationTags_map, returnWord_map]
  rfl

theorem memberBlocks_copied (f : Nat → Nat) (c : Classifier) (indent : String) :
    memberBlocks (copied f c) indent = memberBlocks c indent := by
  have hfields : (copied f c).fields = c.fields.map (·.map Value.str) := rfl
  have hoperations : (copied f c).operations = c.operations.map (·.map Value.str) := rfl
  rw [memberBlocks, memberBlocks, hfields, hoperations, List.map_map, List.map_map]
  refine congrArg₂ (· ++ ·) (List.map_congr_left fun d _ => ?_) (List.map_congr_left fun op _ => ?_)
  · exact fieldLines_map d indent
  · exact operationLines_map op c.kind indent

theorem memberTypes_copied (f : Nat → Nat) (c : Classifier) :
    memberTypes (copied f c) = memberTypes c := by
  have hfields : (copied f c).fields = c.fields.map (·.map Value.str) := rfl
  have hoperations : (copied f c).operations = c.operations.map (·.map Value.str) := rfl
  have hpresent : (Label.present ∘ Value.str) = id := funext fun _ => present_str
  have hsignature : ∀ op : Operation,
      (op.map Value.str).returnType.toList ++ (op.map Value.str).parameters.map (·.typeName) =
        (op.returnType.toList ++ op.parameters.map (·.typeName)).map Value.str := by
    intro op
    rw [OperationOf.map, List.map_append, List.map_map, List.map_map]
    cases op.returnType <;> rfl
  rw [memberTypes_string, memberTypes, hfields, hoperations, List.map_map, List.flatMap_map]
  simp only [hsignature, ← List.map_flatMap]
  rw [show c.fields.map ((·.typeName) ∘ (·.map Value.str)) =
    (c.fields.map (·.typeName)).map Value.str by rw [List.map_map]; rfl, ← List.map_append, List.map_map,
    hpresent, List.map_id]

theorem importOf_copied (h : Rekeyed f t) (hc : c ∈ t.classifiers) {e : Endpoint}
    (he : Rekeyed.Known t e) : importOf (copied f c) (copiedEnd f e) = importOf c e := by
  have hkey : ((copiedEnd f e).key == (copied f c).key) = (e.key == c.key) :=
    h.key_beq he (Rekeyed.known hc)
  have hvoid : Label.isVoid (copiedEnd f e).namespaceName = Label.isVoid e.namespaceName := isVoid_str
  have hsame : ((copiedEnd f e).namespaceName == (copied f c).namespaceName) =
      (e.namespaceName == c.namespaceName) := str_finds
  rw [importOf, importOf, hkey, hvoid, hsame, Validation.qualifiedName_copiedEnd]

theorem nameImport_copied (h : Copy f t d) (hc : c ∈ t.classifiers) (defaultNamespace name : String) :
    nameImport ⟨d.classifiers.map (·.toEndpoint), defaultNamespace⟩ (copied f c) name =
      nameImport ⟨t.classifiers.map (·.toEndpoint), defaultNamespace⟩ c name := by
  have hsimple : ∀ name,
      simpleImport ⟨d.classifiers.map (·.toEndpoint), defaultNamespace⟩ (copied f c) name =
        simpleImport ⟨t.classifiers.map (·.toEndpoint), defaultNamespace⟩ c name := by
    intro name
    have hneeds : needsNoImport (copied f c) name = needsNoImport c name :=
      congrArg (_ || ·) str_finds
    have hdefault : (Label.ofText defaultNamespace == (copied f c).namespaceName) =
        (defaultNamespace == c.namespaceName) := str_finds
    have hfound : (d.classifiers.map (·.toEndpoint)).find? (·.name == Label.ofText name) =
        ((t.classifiers.map (·.toEndpoint)).find? (·.name == name)).map (copiedEnd f) := by
      have hnamed : ∀ c : Classifier, ((copied f c).toEndpoint.name == Label.ofText name) =
          (c.toEndpoint.name == name) := fun _ => str_finds
      rw [h.classifiers, List.map_map, List.find?_map, List.find?_map, Option.map_map]
      simp only [Function.comp_def, hnamed]
      rfl
    rw [simpleImport_string, simpleImport, hfound, hneeds, hdefault]
    cases hknown : (t.classifiers.map (·.toEndpoint)).find? (·.name == name) with
    | none => simp only [Option.map_none]
    | some e =>
      obtain ⟨k, hk, rfl⟩ := List.mem_map.mp (List.mem_of_find?_eq_some hknown)
      simp only [Option.map_some, importOf_copied h.toRekeyed hc (Rekeyed.known hk)]
  rw [nameImport, nameImport, hsimple, hsimple]

theorem imports_copied (h : Copy f t d) (hc : c ∈ t.classifiers) (defaultNamespace : String) :
    imports ⟨d.classifiers.map (·.toEndpoint), defaultNamespace⟩ (copied f c) d.relationships =
      imports ⟨t.classifiers.map (·.toEndpoint), defaultNamespace⟩ c t.relationships := by
  have hedges : (d.relationships.filter (·.source.key == (copied f c).key)).map
        (fun r => importOf (copied f c) r.target) =
      (t.relationships.filter (·.source.key == c.key)).map fun r => importOf c r.target := by
    refine filter_map_eq h.edges (fun r r' hr => ?_) fun r r' hr => ?_
    · rw [hr.rest]
      exact h.key_beq hr.source (Rekeyed.known hc)
    · rw [hr.rest]
      exact importOf_copied h.toRekeyed hc hr.target
  have hfilterMap : ∀ {α : Type} (g : α → Option String) (rs : List α),
      rs.filterMap g = (rs.map g).filterMap id := fun g rs => by rw [List.filterMap_map]; rfl
  have hnames := funext (nameImport_copied h hc defaultNamespace)
  rw [imports, imports, memberTypes_copied, hnames, hfilterMap, hedges, ← hfilterMap]

theorem supertypeNames_copied (h : Copy f t d) (hc : c ∈ t.classifiers)
    (kinds : List RelationshipKind) :
    supertypeNames (copied f c) d.relationships kinds = supertypeNames c t.relationships kinds := by
  refine filter_map_eq h.edges (fun r r' hr => ?_) fun r r' hr => ?_
  · have hkey := h.key_beq hr.source (Rekeyed.known hc)
    rw [hr.rest]
    exact congrArg (· && kinds.contains r.kind) hkey
  · rw [hr.rest]
    rfl

theorem header_copied (h : Copy f t d) (hc : c ∈ t.classifiers) :
    header (copied f c) d.relationships = header c t.relationships := by
  have hname : Label.present (copied f c).name = Label.present c.name :=
    present_str.trans (Label.present_string c.name).symm
  simp only [header, supertypeNames_copied h hc, hname]
  rfl

theorem constantLines_copied (f : Nat → Nat) (c : Classifier) (indent : String) :
    constantLines (copied f c) indent = constantLines c indent := by
  have hliterals : (copied f c).literals.map Label.shown = c.literals.map Label.shown := List.map_map
  rw [constantLines, constantLines, hliterals]
  simp only [copied, ClassifierOf.map, List.isEmpty_map]

theorem unitOf_copied (h : Copy f t d) (hc : c ∈ t.classifiers) (style : UnitStyle) :
    unitOf style d (copied f c) = unitOf style t c := by
  have hvoid : Label.isVoid (copied f c).namespaceName = Label.isVoid c.namespaceName := isVoid_str
  rw [unitOf, unitOf, generate, generate, Option.getD_some, Option.getD_some, unitLines, unitLines,
    imports_copied h hc, header_copied h hc, constantLines_copied, memberBlocks_copied, hvoid]
  rfl

theorem outputPath_str (namespaceName name root suffix : String) :
    outputPath (Value.str namespaceName) (Value.str name) root suffix =
      outputPath namespaceName name root suffix := by
  unfold outputPath
  rw [isVoid_str]
  rfl

theorem units_copied (h : Copy f t d) (style : UnitStyle) : units style d = units style t := by
  rw [units, units, h.classifiers, List.foldl_map]
  refine List.foldl_ext _ _ _ fun files c hc => ?_
  rw [unitOf_copied h hc]
  exact congrArg (putFile · _ files) (outputPath_str ..)

end Java

end ClassAtlas
