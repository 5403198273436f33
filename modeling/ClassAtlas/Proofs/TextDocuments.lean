import ClassAtlas.Proofs.DocumentRoundTrip

/-! # Documents of reachable diagrams

A reachable diagram of texts is settled as soon as its ids and its background are not empty: there are
no nulls among texts, names are given to relationships that have none, and every end is there under an
id of its own. So reading its document restores it. -/

namespace ClassAtlas.Document

/-! ## Texts as values -/

theorem slot_map_str {text? : Option String} : Slot (text?.map Value.str) := by
  cases text? <;> exact nofun

theorem kept_str {text : String} : Kept (.str "") (.str text) := by
  by_cases h : text = ""
  · exact .inr (by rw [h])
  · exact .inl (str_isTruthy.mpr h)

theorem str_finds {a b : String} : (Value.str a == Value.str b) = (a == b) := by
  show Value.finds (.str a) (.str b) = _
  simp [Value.finds, Value.same, Value.isNaN]

theorem ofOption_map_str {text? : Option String} : ofOption (text?.map Value.str) = ofOption text? := by
  cases text? <;> rfl

section Written

theorem writeParameter_map (p : Parameter) : writeParameter (p.map Value.str) = writeParameter p := by
  unfold writeParameter ParameterOf.map
  rw [ofOption_map_str]
  rfl

theorem writeField_map (f : Field) : writeField (f.map Value.str) = writeField f := by
  unfold writeField FieldOf.map
  rw [ofOption_map_str]
  rfl

theorem writeOperation_map (op : Operation) : writeOperation (op.map Value.str) = writeOperation op := by
  unfold writeOperation OperationOf.map
  rw [ofOption_map_str, List.map_map]
  simp only [Function.comp_def, writeParameter_map]
  rfl

theorem writeElement_map (e : Element) : writeElement (e.map Value.str) = writeElement e := by
  cases e with
  | classifier c =>
    simp only [ElementOf.map, ClassifierOf.map, writeElement, classifierFields, ofOption_map_str,
      List.map_map, Function.comp_def, writeField_map, writeOperation_map]
    rfl
  | relationship r =>
    simp only [ElementOf.map, RelationshipOf.map, writeElement, relationshipFields, ofOption_map_str]
    rfl

theorem write_map (d : Diagram) : write (d.map Value.str) = write d := by
  simp only [write, DiagramOf.map, ofOption_map_str, List.map_map, Function.comp_def, writeElement_map]
  rfl

end Written

section Parts

variable (d : Diagram)

theorem classifiers_map : (d.map Value.str).classifiers = d.classifiers.map (·.map .str) := by
  rw [DiagramOf.classifiers, DiagramOf.classifiers, DiagramOf.map, List.filterMap_map,
    List.map_filterMap]
  refine congrArg (List.filterMap · d.elements) (funext fun e => ?_)
  cases e <;> rfl

theorem relationships_map : (d.map Value.str).relationships = d.relationships.map (·.map .str) := by
  rw [DiagramOf.relationships, DiagramOf.relationships, DiagramOf.map, List.filterMap_map,
    List.map_filterMap]
  refine congrArg (List.filterMap · d.elements) (funext fun e => ?_)
  cases e <;> rfl

theorem parted_map : parted (d.map Value.str) = (parted d).map Value.str := by
  rw [parted, classifiers_map, relationships_map, parted, DiagramOf.map, DiagramOf.map,
    List.map_append, List.map_map, List.map_map, List.map_map, List.map_map]
  rfl

end Parts

/-! ## Reachable diagrams are settled -/

theorem classifierSettled_map {c : Classifier} (hid : c.id ≠ "") :
    ClassifierSettled (c.map Value.str) where
  id := str_isTruthy.mpr hid
  hashed := rfl
  namespaceName := kept_str
  members f hf := by
    obtain ⟨f, -, rfl⟩ := List.mem_map.mp hf
    exact slot_map_str
  operations op hop := by
    obtain ⟨op, -, rfl⟩ := List.mem_map.mp hop
    refine ⟨slot_map_str, fun p hp => ?_⟩
    obtain ⟨p, -, rfl⟩ := List.mem_map.mp hp
    exact slot_map_str
  declaredSuperclass := slot_map_str

theorem relationshipSettled_map {r : Relationship} (hid : r.id ≠ "") (hname : r.name ≠ "") :
    RelationshipSettled (r.map Value.str) where
  id := str_isTruthy.mpr hid
  name := str_isTruthy.mpr hname
  sourceRole := slot_map_str
  targetRole := slot_map_str
  sourceMultiplicity := slot_map_str
  targetMultiplicity := slot_map_str
  sourceTooltip := slot_map_str
  targetTooltip := slot_map_str

theorem exists_id_map {cs : List Classifier} {e : Endpoint} (h : ∃ c ∈ cs, c.toEndpoint = e) :
    ∃ c ∈ cs.map (·.map Value.str), c.id = (e.map Value.str).id := by
  obtain ⟨c, hc, rfl⟩ := h
  exact ⟨_, List.mem_map_of_mem hc, rfl⟩

theorem settled_map {w : Identity String} {d : Diagram} (h : Reachable w d)
    (hclassifiers : ∀ c ∈ d.classifiers, c.id ≠ "") (hrelationships : ∀ r ∈ d.relationships, r.id ≠ "")
    (hbackground : d.backgroundColor ≠ "") : Settled (d.map Value.str) where
  uuid := by
    have huuid := h.uuid fun s => by simp [Supply.diagramId]
    exact str_isTruthy.mpr (by simpa using huuid)
  description := kept_str
  author := slot_map_str
  version := slot_map_str
  backgroundColor := str_isTruthy.mpr hbackground
  classifiers c' hc' := by
    rw [classifiers_map] at hc'
    obtain ⟨c, hc, rfl⟩ := List.mem_map.mp hc'
    exact classifierSettled_map (hclassifiers c hc)
  apart := by
    have hapart : d.classifiers.Pairwise fun a b => (w.id a.key == w.id b.key) = false :=
      List.pairwise_map.mp h.tracked.apart
    rw [classifiers_map, List.map_map, List.pairwise_map]
    refine hapart.imp_of_mem fun {a b} ha hb hab => ?_
    show (Value.str b.id == Value.str a.id) = false
    rw [str_finds, h.tracked.id_eq ha, h.tracked.id_eq hb, BEq.comm]
    exact hab
  relationships r' hr' := by
    rw [relationships_map] at hr'
    obtain ⟨r, hr, rfl⟩ := List.mem_map.mp hr'
    exact relationshipSettled_map (hrelationships r hr) (by simpa using h.named hr)
  sources r' hr' := by
    rw [relationships_map] at hr'
    obtain ⟨r, hr, rfl⟩ := List.mem_map.mp hr'
    rw [classifiers_map]
    exact exists_id_map (h.source_mem hr)
  targets r' hr' := by
    rw [relationships_map] at hr'
    obtain ⟨r, hr, rfl⟩ := List.mem_map.mp hr'
    rw [classifiers_map]
    exact exists_id_map (h.target_mem hr)

/-- Reading the document of a reachable diagram draws nothing and restores the diagram: the header,
all classifiers and all relationships in their order, these between the restored classifiers. Written
again, it is the same document with its classifiers first. -/
theorem read_write_reachable {w : Identity String} {d : Diagram} (h : Reachable w d)
    (hclassifiers : ∀ c ∈ d.classifiers, c.id ≠ "") (hrelationships : ∀ r ∈ d.relationships, r.id ≠ "")
    (hbackground : d.backgroundColor ≠ "") (s : Supply) :
    ∃ d' s', (read (write d)).run.run s = (.ok d', s') ∧ s'.drawn = s.drawn ∧
      Restores (d.map Value.str) d' ∧ write d' = write (parted d) := by
  obtain ⟨d', s', hread, hdrawn, hrestores⟩ :=
    (settled_map h hclassifiers hrelationships hbackground).restored s
  rw [write_map] at hread
  refine ⟨d', s', hread, hdrawn, hrestores, ?_⟩
  rw [hrestores.write_eq, parted_map, write_map]

/-- A relationship that stands before another classifier comes to stand after it. -/
theorem read_write_reachable_reordered :
    let shape := bareClass 0 "s"
    let group := bareClass 1 "g"
    let loop := bareEdge 0 shape shape .dependency
    let w : Identity String := ⟨fun key => if key = 0 then "s" else "g", fun _ => 0, fun _ => 0⟩
    let d : Diagram := { (DiagramOf.empty "shapes" "" none none none {}).1 with
      elements := [.classifier shape, .relationship loop, .classifier group]
      index := [("s", 0), ("g", 1)] }
    Reachable w d ∧
      (parted d).elements = [.classifier shape, .classifier group, .relationship loop] ∧
      ∃ d' s', (read (write d)).run.run {} = (.ok d', s') ∧ s'.drawn = 0 ∧
        Restores (d.map Value.str) d' ∧ write d' = write (parted d) := by
  intro shape group loop w d
  have hreach : Reachable w d := by
    have hnew : Reachable w (DiagramOf.empty "shapes" "" none none none {}).1 := .new ..
    have hshape := hnew.withClassifier (c := shape) rfl rfl
    have hmem : shape ∈ [shape] := List.mem_cons_self
    have hloop := hshape.withRelationship (r := loop) hmem hmem rfl rfl ⟨rfl, rfl⟩ rfl rfl
    exact hloop.withClassifier (c := group) rfl rfl
  have hclassifiers : ∀ c ∈ d.classifiers, c.id ≠ "" := by
    show ∀ c ∈ [shape, group], c.id ≠ ""
    simp [shape, group, bareClass]
  have hrelationships : ∀ r ∈ d.relationships, r.id ≠ "" := by
    show ∀ r ∈ [loop], r.id ≠ ""
    simp [loop, bareEdge]
  have hbackground : d.backgroundColor ≠ "" := by
    show "#FFFFFF" ≠ ""
    decide
  exact ⟨hreach, rfl, read_write_reachable hreach hclassifiers hrelationships hbackground {}⟩

end ClassAtlas.Document
