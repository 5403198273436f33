import ClassAtlas.Java.Unit
import ClassAtlas.Proofs.NeededImports

/-! # What a unit depends on

Of the diagram around its classifier a unit sees the names of the classifiers, in order, and where the
relationships of its own classifier lead. Two diagrams that look alike in this give the same text,
whatever else they hold: relationships that come in or pass by, the members of other classifiers, and
all that a relationship has beyond its kind and its target. -/

namespace ClassAtlas.Java

/-! ## What is seen -/

/-- A diagram in which classifiers are known as they are: under one key there is one of them, and a
relationship leads to one of them. -/
structure Coherent (d : Diagram) : Prop where
  one : ∀ a ∈ d.classifiers, ∀ b ∈ d.classifiers, a.key = b.key → a.toEndpoint = b.toEndpoint
  led : ∀ r ∈ d.relationships, ∃ k ∈ d.classifiers, k.toEndpoint = r.target

/-- A classifier with the same contents, as far as units go. -/
structure SameContents (c c' : Classifier) : Prop where
  name : c'.name = c.name
  namespaceName : c'.namespaceName = c.namespaceName
  kind : c'.kind = c.kind
  isAbstract : c'.isAbstract = c.isAbstract
  fields : c'.fields = c.fields
  operations : c'.operations = c.operations
  literals : c'.literals = c.literals

/-- The names of the classifiers of a diagram, each with its namespace. -/
def namesAround (d : Diagram) : List (String × String) :=
  d.classifiers.map fun k => (k.name, k.namespaceName)

/-- The place of a classifier among those of a diagram. -/
def placeOf (d : Diagram) (key : Nat) : Option Nat := d.classifiers.findIdx? (·.key == key)

/-- The kinds of the relationships that start at a classifier, and the places where they lead. -/
def outgoingPlaces (d : Diagram) (c : Classifier) : List (RelationshipKind × Option Nat) :=
  (d.outgoing c.key).map fun r => (r.kind, placeOf d r.target.key)

theorem coherent_of_reachable {w : Identity String} {d : Diagram} (h : Reachable w d) : Coherent d where
  one a ha b hb hkey := by rw [h.tracked.eq_of_key ha hb hkey]
  led _ hr := h.target_mem hr

section Seen

variable {d d' : Diagram} {c c' : Classifier} {e : Endpoint} {defaultNamespace name : String}

/-! ## Imports -/

/-- The import of a classifier of this name and namespace into a unit of some namespace. -/
def importInto (home : String) (seen : String × String) : Option String :=
  if seen.2.isEmpty || seen.2 == home then none else some (qualify seen.2 seen.1)

/-- Whether the target is the unit's own classifier makes no difference: that one has its namespace. -/
theorem importOf_eq (hself : e.key = c.key → e.namespaceName = c.namespaceName) :
    importOf c e = importInto c.namespaceName (e.name, e.namespaceName) := by
  rw [importOf, importInto]
  by_cases hkey : e.key = c.key
  · simp [hself hkey]
  · simp [hkey, EndpointOf.qualifiedName]

theorem Coherent.importOf_eq (h : Coherent d) (hc : c ∈ d.classifiers)
    (he : ∃ k ∈ d.classifiers, k.toEndpoint = e) :
    importOf c e = importInto c.namespaceName (e.name, e.namespaceName) := by
  obtain ⟨k, hk, rfl⟩ := he
  exact Java.importOf_eq fun hkey => congrArg EndpointOf.namespaceName (h.one k hk c hc hkey)

/-- A simple name is imported as the names around say. -/
theorem Coherent.simpleImport_eq (h : Coherent d) (hc : c ∈ d.classifiers) :
    simpleImport ⟨d.classifiers.map (·.toEndpoint), defaultNamespace⟩ c name =
      if needsNoImport c name then none
      else match (namesAround d).find? (·.1 == name) with
        | some seen => importInto c.namespaceName seen
        | none =>
          if defaultNamespace.isEmpty || defaultNamespace == c.namespaceName then none
          else some (defaultNamespace ++ "." ++ name) := by
  have hknown : (d.classifiers.map (·.toEndpoint)).find? (·.name == name) =
      (d.classifiers.find? (·.name == name)).map (·.toEndpoint) := List.find?_map ..
  have hnames : (namesAround d).find? (·.1 == name) =
      (d.classifiers.find? (·.name == name)).map fun k => (k.name, k.namespaceName) := List.find?_map ..
  rw [simpleImport_string, hknown, hnames]
  cases hfirst : d.classifiers.find? (·.name == name) with
  | none => rfl
  | some first =>
    have himport := h.importOf_eq hc ⟨first, List.mem_of_find?_eq_some hfirst, rfl⟩
    simp only [Option.map_some, himport]
    rfl

theorem nameImport_congr (h : Coherent d) (h' : Coherent d') (hc : c ∈ d.classifiers)
    (hc' : c' ∈ d'.classifiers) (hcontents : SameContents c c') (hnames : namesAround d' = namesAround d) :
    nameImport ⟨d'.classifiers.map (·.toEndpoint), defaultNamespace⟩ c' =
      nameImport ⟨d.classifiers.map (·.toEndpoint), defaultNamespace⟩ c := by
  funext name
  have hsimple : ∀ s, simpleImport ⟨d'.classifiers.map (·.toEndpoint), defaultNamespace⟩ c' s =
      simpleImport ⟨d.classifiers.map (·.toEndpoint), defaultNamespace⟩ c s := fun s => by
    rw [h'.simpleImport_eq hc', h.simpleImport_eq hc, needsNoImport, needsNoImport, hnames,
      hcontents.name, hcontents.namespaceName]
  rw [nameImport, nameImport, hsimple, hsimple]

/-! ## Relationships -/

/-- What a unit sees of the relationships that start at its classifier. -/
def ledTo (d : Diagram) (c : Classifier) : List (RelationshipKind × String × String) :=
  (d.relationships.filter (·.source.key == c.key)).map fun r =>
    (r.kind, r.target.name, r.target.namespaceName)

/-- At the place of a target stands what a relationship knows of it. -/
theorem Coherent.exists_place (h : Coherent d) {r : Relationship} (hr : r ∈ d.relationships) :
    ∃ place, placeOf d r.target.key = some place ∧
      (namesAround d)[place]? = some (r.target.name, r.target.namespaceName) := by
  obtain ⟨k, hk, hknown⟩ := h.led r hr
  rw [← hknown]
  have hsome : (placeOf d k.toEndpoint.key).isSome := by
    rw [placeOf, List.findIdx?_isSome, List.any_eq_true]
    exact ⟨k, hk, beq_self_eq_true _⟩
  obtain ⟨place, hplace⟩ := Option.isSome_iff_exists.mp hsome
  refine ⟨place, hplace, ?_⟩
  obtain ⟨hlt, hkey, -⟩ := List.findIdx?_eq_some_iff_getElem.mp hplace
  have hone := h.one _ (List.getElem_mem hlt) k hk (beq_iff_eq.mp hkey)
  rw [namesAround, List.getElem?_map, List.getElem?_eq_getElem hlt, Option.map_some]
  exact congrArg (fun e => some (e.name, e.namespaceName)) hone

/-- The places of targets and the names around tell where relationships lead. -/
theorem Coherent.ledTo_eq (h : Coherent d) (c : Classifier) : ledTo d c =
    (outgoingPlaces d c).map fun led =>
      (led.1, (led.2.bind fun place => (namesAround d)[place]?).getD ("", "")) := by
  have houtgoing : d.outgoing c.key = d.relationships.filter (·.source.key == c.key) := by
    simp [DiagramOf.outgoing]
  rw [ledTo, outgoingPlaces, houtgoing, List.map_map]
  refine List.map_congr_left fun r hr => ?_
  obtain ⟨place, hplace, hseen⟩ := h.exists_place (List.mem_of_mem_filter hr)
  simp [hplace, hseen]

theorem supertypeNames_eq (c : Classifier) (kinds : List RelationshipKind) :
    supertypeNames c d.relationships kinds =
      ((ledTo d c).filter fun led => kinds.contains led.1).map (·.2.1) := by
  rw [supertypeNames, ledTo, List.filter_map, List.map_map, List.filter_filter]
  simp only [Function.comp_def, Bool.and_comm, Label.shown_string]

theorem Coherent.imports_eq (h : Coherent d) (hc : c ∈ d.classifiers) (scope : ImportScope) :
    imports scope c d.relationships = sortedDistinct
      ((memberTypes c).flatMap (fun t => (TypeNames.ofText t).filterMap (nameImport scope c)) ++
        (ledTo d c).filterMap fun led => importInto c.namespaceName led.2) := by
  rw [imports, ledTo, List.filterMap_map]
  refine congrArg (fun led => sortedDistinct (_ ++ led)) (List.filterMap_congr fun r hr => ?_)
  exact h.importOf_eq hc (h.led r (List.mem_of_mem_filter hr))

/-! ## Units -/

/-- A unit is the same in diagrams that show its classifier the same names and ways. -/
theorem unitOf_congr (h : Coherent d) (h' : Coherent d') (hc : c ∈ d.classifiers)
    (hc' : c' ∈ d'.classifiers) (hcontents : SameContents c c') (hnames : namesAround d' = namesAround d)
    (houtgoing : outgoingPlaces d' c' = outgoingPlaces d c) (style : UnitStyle) :
    unitOf style d' c' = unitOf style d c := by
  have hled : ledTo d' c' = ledTo d c := by rw [h'.ledTo_eq, h.ledTo_eq, hnames, houtgoing]
  have hsupertypes : ∀ kinds, supertypeNames c' d'.relationships kinds =
      supertypeNames c d.relationships kinds := fun kinds => by
    rw [supertypeNames_eq, supertypeNames_eq, hled]
  have htypes : memberTypes c' = memberTypes c := by
    rw [memberTypes, memberTypes, hcontents.fields, hcontents.operations]
  have himports : imports ⟨d'.classifiers.map (·.toEndpoint), style.defaultNamespace⟩ c' d'.relationships =
      imports ⟨d.classifiers.map (·.toEndpoint), style.defaultNamespace⟩ c d.relationships := by
    rw [h'.imports_eq hc', h.imports_eq hc, htypes, hled, hcontents.namespaceName,
      nameImport_congr h h' hc hc' hcontents hnames]
  have hheader : header c' d'.relationships = header c d.relationships := by
    simp only [header, hsupertypes, hcontents.kind, hcontents.name, hcontents.isAbstract]
  have hmembers : memberBlocks c' style.indent = memberBlocks c style.indent := by
    rw [memberBlocks, memberBlocks, hcontents.fields, hcontents.operations, hcontents.kind]
  have hconstants : constantLines c' style.indent = constantLines c style.indent := by
    simp only [constantLines, hcontents.fields, hcontents.operations, hcontents.kind, hcontents.literals]
  simp only [unitOf, generate, Option.getD_some, unitLines, himports, hheader, hmembers, hconstants,
    hcontents.name, hcontents.namespaceName]

end Seen

/-- A circle in two diagrams: in the second one its shape has got a method, its pen is an interface that
uses it, and its own edge to the pen has got a number and a role. -/
theorem unitOf_congr_circle :
    let shape := { bareClass 0 "s" with name := "Shape", namespaceName := "geo" }
    let circle := { bareClass 1 "c" with
      name := "Circle", namespaceName := "geo"
      fields := [⟨"pen", "Pen", none, .private, false, false⟩] }
    let pen := { bareClass 2 "p" with name := "Pen", namespaceName := "ink" }
    let shape' := { shape with key := 7, id := "t", operations := [{ name := "area" }] }
    let circle' := { circle with key := 8, id := "u", declaredSuperclass := some "Shape" }
    let pen' := { pen with key := 9, id := "v", kind := .interface }
    let w : Identity String := ⟨fun key => ["s", "c", "p"].getD key "", fun _ => 1,
      fun key => if key = 0 then 0 else 2⟩
    let w' : Identity String := ⟨fun key => ["t", "u", "v"].getD (key - 7) "",
      fun key => if key = 4 then 9 else 8, fun key => if key = 4 then 8 else if key = 5 then 7 else 9⟩
    let d : Diagram := { (DiagramOf.empty "d" "" none none none {}).1 with
      elements := [.classifier shape, .classifier circle, .classifier pen,
        .relationship (bareEdge 0 circle shape .inheritance),
        .relationship (bareEdge 1 circle pen .association)]
      index := [("s", 0), ("c", 1), ("p", 2)] }
    let d' : Diagram := { (DiagramOf.empty "d" "" none none none {}).1 with
      elements := [.classifier shape', .classifier circle', .classifier pen',
        .relationship (bareEdge 4 pen' circle' .dependency),
        .relationship (bareEdge 5 circle' shape' .inheritance),
        .relationship { bareEdge 6 circle' pen' .association with
          targetRole := some "outline", targetMultiplicity := some "0..1" }]
      index := [("t", 7), ("u", 8), ("v", 9)] }
    Reachable w d ∧ Reachable w' d' ∧
      outgoingPlaces d circle = [(.inheritance, some 0), (.association, some 2)] ∧
      ∀ style, unitOf style d' circle' = unitOf style d circle := by
  intro shape circle pen shape' circle' pen' w w' d d'
  have hreach : Reachable w d := by
    have hnew : Reachable w (DiagramOf.empty "d" "" none none none {}).1 := .new ..
    have hshape := hnew.withClassifier (c := shape) rfl rfl
    have hcircle := hshape.withClassifier (c := circle) rfl rfl
    have hpen := hcircle.withClassifier (c := pen) rfl rfl
    have hextends := hpen.withRelationship (r := bareEdge 0 circle shape .inheritance) (a := circle)
      (b := shape) (DiagramOf.mem_classifiers.mpr (by simp)) (DiagramOf.mem_classifiers.mpr (by simp))
      rfl rfl ⟨rfl, rfl⟩ rfl rfl
    exact hextends.withRelationship (r := bareEdge 1 circle pen .association) (a := circle) (b := pen)
      (DiagramOf.mem_classifiers.mpr (by simp)) (DiagramOf.mem_classifiers.mpr (by simp))
      rfl rfl ⟨rfl, rfl⟩ rfl rfl
  have hreach' : Reachable w' d' := by
    have hnew : Reachable w' (DiagramOf.empty "d" "" none none none {}).1 := .new ..
    have hshape := hnew.withClassifier (c := shape') rfl rfl
    have hcircle := hshape.withClassifier (c := circle') rfl rfl
    have hpen := hcircle.withClassifier (c := pen') rfl rfl
    have huses := hpen.withRelationship (r := bareEdge 4 pen' circle' .dependency) (a := pen')
      (b := circle') (DiagramOf.mem_classifiers.mpr (by simp)) (DiagramOf.mem_classifiers.mpr (by simp))
      rfl rfl ⟨rfl, rfl⟩ rfl rfl
    have hextends := huses.withRelationship (r := bareEdge 5 circle' shape' .inheritance) (a := circle')
      (b := shape') (DiagramOf.mem_classifiers.mpr (by simp)) (DiagramOf.mem_classifiers.mpr (by simp))
      rfl rfl ⟨rfl, rfl⟩ rfl rfl
    exact hextends.withRelationship (a := circle') (b := pen')
      (DiagramOf.mem_classifiers.mpr (by simp)) (DiagramOf.mem_classifiers.mpr (by simp))
      rfl rfl ⟨rfl, rfl⟩ rfl rfl
  refine ⟨hreach, hreach', by decide, ?_⟩
  exact unitOf_congr (coherent_of_reachable hreach) (coherent_of_reachable hreach')
    (DiagramOf.mem_classifiers.mpr (by simp [d])) (DiagramOf.mem_classifiers.mpr (by simp [d']))
    ⟨rfl, rfl, rfl, rfl, rfl, rfl, rfl⟩ (by decide) (by decide)

end ClassAtlas.Java
