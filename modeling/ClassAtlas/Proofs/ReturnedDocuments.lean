import ClassAtlas.Proofs.AnsweredDocuments

/-! # Documents that come back

A column of texts gives back texts and a column of numbers gives back no NaN, so a store changes what its
columns were not made for. What reading a stored document gives holds texts and numbers alone, and these
every column gives back. So a diagram that was read and saved comes back as it was just when its columns
have been given texts and numbers. What is stored whole may be anything. -/

namespace ClassAtlas.Store

open Document

/-! ## What columns keep -/

/-- A classifier whose columns give back what they are given. -/
structure StorableClassifier (c : ClassifierOf Value) : Prop where
  id : IsText c.id
  name : IsText c.name
  namespaceName : IsText c.namespaceName
  declaredSuperclass : ∀ v ∈ c.declaredSuperclass, IsText v
  x : Held c.box.x
  y : Held c.box.y
  width : Held c.box.width
  height : Held c.box.height

/-- A relationship whose columns give back what they are given. Its ends are classifiers and have ids of
theirs. -/
structure StorableRelationship (r : RelationshipOf Value) : Prop where
  id : IsText r.id
  name : IsText r.name
  sourceRole : ∀ v ∈ r.sourceRole, IsText v
  targetRole : ∀ v ∈ r.targetRole, IsText v
  sourceMultiplicity : ∀ v ∈ r.sourceMultiplicity, IsText v
  targetMultiplicity : ∀ v ∈ r.targetMultiplicity, IsText v
  sourceTooltip : ∀ v ∈ r.sourceTooltip, IsText v
  targetTooltip : ∀ v ∈ r.targetTooltip, IsText v

/-- A header whose columns give back what they are given. -/
structure StorableHeader (d : DiagramOf Value) : Prop where
  uuid : IsText d.uuid
  name : IsText d.name
  description : IsText d.description
  author : ∀ v ∈ d.author, IsText v
  version : ∀ v ∈ d.version, IsText v
  gridSize : Held d.gridSize
  backgroundColor : IsText d.backgroundColor

/-- The same of all elements. -/
structure StorableElements (d : DiagramOf Value) : Prop where
  classifiers : ∀ c ∈ d.classifiers, StorableClassifier c
  relationships : ∀ r ∈ d.relationships, StorableRelationship r

/-- A diagram whose columns give back what they are given. -/
structure Storable (d : DiagramOf Value) : Prop extends StorableHeader d, StorableElements d

section Columns

variable {v : Value} {v? : Option Value} {text? : Option String} {uuid : String} {updated position : Nat}

theorem ofText?_column (h : IsText v) (hcolumn : column v = .ok text?) :
    Value.ofText? text? = v ∧ textOrEmpty text? = v := by
  obtain ⟨text, rfl⟩ := h
  cases hcolumn
  exact ⟨rfl, rfl⟩

theorem str_column {text : String} (h : IsText v) (hcolumn : column v = .ok (some text)) :
    Value.str text = v :=
  (ofText?_column h hcolumn).1

theorem ofText?_optionalColumn (h : ∀ v ∈ v?, IsText v) (hcolumn : optionalColumn v? = .ok text?) :
    Value.ofText? text? = ofOption v? := by
  cases v? with
  | none =>
    cases hcolumn
    rfl
  | some v => exact (ofText?_column (h v rfl) hcolumn).1

theorem StorableHeader.toDocument_eq {d : DiagramOf Value} {row : DiagramRow} (h : StorableHeader d)
    (huuid : column d.uuid = .ok (some uuid)) (hrow : DiagramRow.ofDiagram uuid updated d = .ok row) :
    row.toDocument (d.elements.map writeElement) = write d := by
  unfold DiagramRow.ofDiagram at hrow
  simp only [bind_eq_ok, filled_eq_ok] at hrow
  obtain ⟨_, hname, description?, hdescription, author?, hauthor, version?, hversion, hrow⟩ := hrow
  obtain ⟨background?, hbackground, name, rfl, hrow⟩ := hrow
  cases hrow
  simp only [DiagramRow.toDocument, write, str_column h.uuid huuid, str_column h.name hname,
    (ofText?_column h.description hdescription).2, ofText?_optionalColumn h.author hauthor,
    ofText?_optionalColumn h.version hversion, ofNumber_numberColumn h.gridSize,
    (ofText?_column h.backgroundColor hbackground).1]
  rfl

theorem StorableClassifier.toElement_eq {c : ClassifierOf Value} {row : ClassifierRow}
    (h : StorableClassifier c) (hrow : ClassifierRow.ofClassifier uuid position c = .ok row) :
    row.toElement = writeElement (.classifier c) := by
  unfold ClassifierRow.ofClassifier at hrow
  simp only [bind_eq_ok, filled_eq_ok] at hrow
  obtain ⟨_, hid, _, hname, namespace?, hnamespace, superclass?, hsuperclass, hrow⟩ := hrow
  obtain ⟨id, rfl, name, rfl, hrow⟩ := hrow
  cases hrow
  simp only [ClassifierRow.toElement, writeElement, classifierFields, str_column h.id hid,
    str_column h.name hname, (ofText?_column h.namespaceName hnamespace).2,
    ofText?_optionalColumn h.declaredSuperclass hsuperclass, ofNumber_numberColumn h.x,
    ofNumber_numberColumn h.y, ofNumber_numberColumn h.width, ofNumber_numberColumn h.height]
  rfl

theorem StorableRelationship.toElement_eq {r : RelationshipOf Value} {row : RelationshipRow}
    (h : StorableRelationship r) (hsource : IsText r.source.id) (htarget : IsText r.target.id)
    (hrow : RelationshipRow.ofRelationship uuid position r = .ok row) :
    row.toElement = writeElement (.relationship r) := by
  unfold RelationshipRow.ofRelationship at hrow
  simp only [bind_eq_ok, filled_eq_ok] at hrow
  obtain ⟨_, hid, _, hsourceId, _, htargetId, name?, hname, hrow⟩ := hrow
  obtain ⟨_, hsourceRole, _, htargetRole, _, hsourceMultiplicity, _, htargetMultiplicity, hrow⟩ := hrow
  obtain ⟨_, hsourceTooltip, _, htargetTooltip, id, rfl, source, rfl, target, rfl, hrow⟩ := hrow
  cases hrow
  simp only [RelationshipRow.toElement, writeElement, relationshipFields, str_column h.id hid,
    str_column hsource hsourceId, str_column htarget htargetId, (ofText?_column h.name hname).1,
    ofText?_optionalColumn h.sourceRole hsourceRole, ofText?_optionalColumn h.targetRole htargetRole,
    ofText?_optionalColumn h.sourceMultiplicity hsourceMultiplicity,
    ofText?_optionalColumn h.targetMultiplicity htargetMultiplicity,
    ofText?_optionalColumn h.sourceTooltip hsourceTooltip,
    ofText?_optionalColumn h.targetTooltip htargetTooltip]
  rfl

end Columns

/-- Where every column gives back what it is given, the rows tell all that the document does. -/
theorem Storable.lossless {d : DiagramOf Value} {uuid : String} (h : Storable d)
    (huuid : column d.uuid = .ok (some uuid))
    (sources : ∀ r ∈ d.relationships, ∃ c ∈ d.classifiers, c.toEndpoint = r.source)
    (targets : ∀ r ∈ d.relationships, ∃ c ∈ d.classifiers, c.toEndpoint = r.target) :
    Lossless uuid d where
  diagram _ _ hrow := h.toDocument_eq huuid hrow
  classifiers c hc _ _ hrow := (h.classifiers c hc).toElement_eq hrow
  relationships r hr _ _ hrow := by
    obtain ⟨a, ha, hsource⟩ := sources r hr
    obtain ⟨b, hb, htarget⟩ := targets r hr
    have hsourceId : IsText r.source.id := hsource ▸ (h.classifiers a ha).id
    have htargetId : IsText r.target.id := htarget ▸ (h.classifiers b hb).id
    exact (h.relationships r hr).toElement_eq hsourceId htargetId hrow

/-! ## What is read from rows -/

section Given

variable {fields : List (String × Value)} {key : String} {default : Value}

theorem isText_presentOr (text? : Option String)
    (hfound : fields.lookup key = some (Value.ofText? text?)) (hdefault : IsText default) :
    IsText (presentOr fields key default) := by
  unfold presentOr
  rw [hfound]
  cases text? with
  | none => exact hdefault
  | some text =>
    show IsText (if (Value.str text).isTruthy = true then .str text else default)
    split
    · exact ⟨text, rfl⟩
    · exact hdefault

theorem isText_optional (text? : Option String)
    (hfound : fields.lookup key = some (Value.ofText? text?)) : ∀ v ∈ optional fields key, IsText v := by
  unfold Document.optional
  rw [hfound]
  cases text? with
  | none => exact nofun
  | some text =>
    intro v hv
    exact ⟨text, (Option.some.inj hv).symm⟩

theorem held_of_realOf {x y : Float} (hfound : fields.lookup key = some (ofNumber (numberColumn x)))
    (hread : realOf (valueOr fields key default) = .ok y) : Held y := by
  unfold valueOr at hread
  rw [hfound, Option.getD_some] at hread
  unfold numberColumn at hread
  -- a missing number is null, and null is no number
  cases hx : x.isNaN with
  | true =>
    rw [hx] at hread
    cases hread
  | false =>
    rw [hx] at hread
    cases hread
    exact hx

/-- An id that was stored or is drawn is a text. -/
theorem isText_idOr {s : Supply} {text : String} (hfound : fields.lookup key = some (.str text)) :
    IsText (s.idOr (presentOr fields key .null)).1 := by
  have hgiven : presentOr fields key .null = if (Value.str text).isTruthy = true then .str text else .null := by
    unfold presentOr
    rw [hfound]
  unfold Supply.idOr
  rw [hgiven, isVoid_value]
  cases htext : (Value.str text).isTruthy with
  | true =>
    rw [if_pos rfl, htext]
    exact ⟨text, rfl⟩
  | false => exact ⟨_, rfl⟩

end Given

/-- An element as a row of a store tells of it. -/
inductive Told : Value → Prop where
  | classifier {uuid : String} {position : Nat} {c : ClassifierOf Value} {row : ClassifierRow} :
      ClassifierRow.ofClassifier uuid position c = .ok row → Told row.toElement
  | relationship {uuid : String} {position : Nat} {r : RelationshipOf Value} {row : RelationshipRow} :
      RelationshipRow.ofRelationship uuid position r = .ok row → Told row.toElement

section Told

variable {d d' : DiagramOf Value} {s s' : Supply} {v : Value} {fields : List (String × Value)}
  {uuid : String} {position : Nat}

theorem storable_of_classifierRow {c a a' : ClassifierOf Value} {row : ClassifierRow}
    (hrow : ClassifierRow.ofClassifier uuid position c = .ok row) (hfields : row.toElement = .object fields)
    (shown : ClassifierShown fields a) (enrolled : s.enrolClassifier a = (a', s')) :
    StorableClassifier a' := by
  unfold ClassifierRow.ofClassifier at hrow
  simp only [bind_eq_ok] at hrow
  obtain ⟨_, -, _, -, _, -, _, -, id, -, name, -, hrow⟩ := hrow
  cases hrow
  cases hfields
  cases enrolled
  constructor
  · show IsText (s.idOr a.id).1
    rw [← shown.id]
    exact isText_idOr rfl
  · exact ⟨name, (Option.some.inj shown.name).symm⟩
  · show IsText a.namespaceName
    rw [← shown.namespaceName]
    exact isText_presentOr (some _) rfl ⟨"", rfl⟩
  · show ∀ v ∈ a.declaredSuperclass, IsText v
    rw [← shown.declaredSuperclass]
    exact isText_optional _ rfl
  · exact held_of_realOf rfl shown.x
  · exact held_of_realOf rfl shown.y
  · exact held_of_realOf rfl shown.width
  · exact held_of_realOf rfl shown.height

theorem storable_of_relationshipRow {r a a' : RelationshipOf Value} {row : RelationshipRow}
    (hrow : RelationshipRow.ofRelationship uuid position r = .ok row)
    (hfields : row.toElement = .object fields) (shown : RelationshipShown d fields a)
    (enrolled : s.enrolRelationship a = (a', s')) : StorableRelationship a' := by
  unfold RelationshipRow.ofRelationship at hrow
  simp only [bind_eq_ok] at hrow
  obtain ⟨_, -, _, -, _, -, _, -, _, -, _, -, _, -, _, -, _, -, _, -, _, -, _, -, _, -, hrow⟩ := hrow
  cases hrow
  cases hfields
  cases enrolled
  constructor
  · show IsText (s.idOr a.id).1
    rw [← shown.id]
    exact isText_idOr rfl
  · show IsText (if Label.isVoid a.name then RelationshipOf.defaultName a.source a.target else a.name)
    split
    · exact ⟨_, rfl⟩
    · rw [← shown.name]
      exact isText_presentOr _ rfl ⟨"", rfl⟩
  · show ∀ v ∈ a.sourceRole, IsText v
    exact shown.sourceRole ▸ isText_optional _ rfl
  · show ∀ v ∈ a.targetRole, IsText v
    exact shown.targetRole ▸ isText_optional _ rfl
  · show ∀ v ∈ a.sourceMultiplicity, IsText v
    exact shown.sourceMultiplicity ▸ isText_optional _ rfl
  · show ∀ v ∈ a.targetMultiplicity, IsText v
    exact shown.targetMultiplicity ▸ isText_optional _ rfl
  · show ∀ v ∈ a.sourceTooltip, IsText v
    exact shown.sourceTooltip ▸ isText_optional _ rfl
  · show ∀ v ∈ a.targetTooltip, IsText v
    exact shown.targetTooltip ▸ isText_optional _ rfl

theorem StorableElements.addClassifier {c : ClassifierOf Value} {index : List (Value × Nat)}
    (h : StorableElements d) (hc : StorableClassifier c) :
    StorableElements { d with elements := d.elements ++ [.classifier c], index } := by
  constructor
  · rw [classifiers_append_classifier, List.forall_mem_append, List.forall_mem_singleton]
    exact ⟨h.classifiers, hc⟩
  · rw [relationships_append_classifier]
    exact h.relationships

theorem StorableElements.addRelationship {r : RelationshipOf Value} (h : StorableElements d)
    (hr : StorableRelationship r) :
    StorableElements { d with elements := d.elements ++ [.relationship r] } := by
  constructor
  · rw [classifiers_append_relationship]
    exact h.classifiers
  · rw [relationships_append_relationship, List.forall_mem_append, List.forall_mem_singleton]
    exact ⟨h.relationships, hr⟩

theorem storable_of_classifierStep (h : ClassifierStep d s v d' s') (hv : Told v)
    (hd : StorableElements d) : StorableElements d' := by
  cases h with
  | skipped => exact hd
  | @added fields c c' s' sort shown enrolled =>
    generalize hfields : Value.object fields = v at hv
    cases hv with
    | classifier hrow => exact hd.addClassifier (storable_of_classifierRow hrow hfields.symm shown enrolled)
    | relationship hrow =>
      cases hfields
      have hsort : (some "relationship" == some "classifier") = true := sort
      exact absurd hsort (by decide)

theorem storable_of_relationshipStep (h : RelationshipStep d s v d' s') (hv : Told v)
    (hd : StorableElements d) : StorableElements d' := by
  cases h with
  | skipped => exact hd
  | @added fields r r' s' sort shown enrolled =>
    generalize hfields : Value.object fields = v at hv
    cases hv with
    | classifier hrow =>
      cases hfields
      have hsort : (some "classifier" == some "relationship") = true := sort
      exact absurd hsort (by decide)
    | relationship hrow =>
      exact hd.addRelationship (storable_of_relationshipRow hrow hfields.symm shown enrolled)

end Told

section Stored

variable {db : Database} {d d' : DiagramOf Value} {s s' : Supply} {uuid : String}

theorem storable_of_diagramRow {updated : Nat} {row : DiagramRow} {elements : List Value}
    {fields : List (String × Value)} (hrow : DiagramRow.ofDiagram uuid updated d = .ok row)
    (hfields : row.toDocument elements = .object fields) (shown : HeaderShown fields s d' s') :
    StorableHeader d' := by
  unfold DiagramRow.ofDiagram at hrow
  simp only [bind_eq_ok] at hrow
  obtain ⟨_, -, _, -, _, -, _, -, _, -, name, -, hrow⟩ := hrow
  cases hrow
  cases hfields
  constructor
  · have huuid := congrArg (fun begun => IsText begun.1.uuid) shown.begun
    refine (iff_of_eq huuid).mp ?_
    unfold DiagramOf.empty
    dsimp only
    split
    · rename_i u hu
      obtain ⟨hgiven, -⟩ := Option.filter_eq_some_iff.mp hu
      exact isText_optional (some uuid) rfl u hgiven
    · exact ⟨_, rfl⟩
  · exact ⟨name, (Option.some.inj shown.name).symm⟩
  · exact shown.description ▸ isText_presentOr (some _) rfl ⟨"", rfl⟩
  · exact shown.author ▸ isText_optional _ rfl
  · exact shown.version ▸ isText_optional _ rfl
  · exact held_of_realOf rfl shown.gridSize
  · exact shown.backgroundColor ▸ isText_presentOr _ rfl ⟨"#FFFFFF", rfl⟩

theorem storable_of_sameHeader (h : SameHeader d d') (hd : StorableHeader d) : StorableHeader d' := by
  rw [h]
  exact ⟨hd.uuid, hd.name, hd.description, hd.author, hd.version, hd.gridSize, hd.backgroundColor⟩

theorem Holds.told (h : Holds db uuid (some d)) : ∀ v ∈ db.elementsOf uuid, Told v := by
  intro v hv
  obtain ⟨p, hp, rfl⟩ := List.mem_map.mp hv
  rw [List.mem_mergeSort] at hp
  unfold Database.placedElements at hp
  cases h with
  | diagram rows _ _ hclassifiers hrelationships =>
    rw [hclassifiers, hrelationships] at hp
    rcases List.mem_append.mp hp with hp | hp
    · obtain ⟨row, hrow, rfl⟩ := List.mem_map.mp hp
      obtain ⟨c, -, hwritten⟩ := exists_of_forall₂ rows.classifiers_written hrow
      exact .classifier hwritten
    · obtain ⟨row, hrow, rfl⟩ := List.mem_map.mp hp
      obtain ⟨r, -, hwritten⟩ := exists_of_forall₂ rows.relationships_written hrow
      exact .relationship hwritten

theorem classifiers_storable {parts : List Value}
    (h : Makes (parts.foldlM addClassifierElement d) s d' s') (htold : ∀ v ∈ parts, Told v)
    (hd : StorableElements d) : StorableElements d' := by
  refine foldlM_preserves (fun d _ => StorableElements d) ?_ h hd
  intro _ _ v _ _ hv hmade
  exact storable_of_classifierStep (makes_addClassifierElement.mp hmade) (htold v hv)

theorem relationships_storable {parts : List Value}
    (h : Makes (parts.foldlM addRelationshipElement d) s d' s') (htold : ∀ v ∈ parts, Told v)
    (hd : StorableElements d) : StorableElements d' := by
  refine foldlM_preserves (fun d _ => StorableElements d) ?_ h hd
  intro _ _ v _ _ hv hmade
  exact storable_of_relationshipStep (makes_addRelationshipElement.mp hmade) (htold v hv)

/-- A document of rows is read as a storable diagram. -/
theorem storable_of_read {updated : Nat} {row : DiagramRow} {parts : List Value}
    (hrow : DiagramRow.ofDiagram uuid updated d = .ok row) (htold : ∀ v ∈ parts, Told v)
    (hread : Makes (read (row.toDocument parts)) s d' s') : Storable d' := by
  obtain ⟨fields, found, header, d₁, s₀, s₁, hfields, hfound, shown, hclassifiers, hrelationships⟩ :=
    makes_read.mp hread
  have hheader := storable_of_diagramRow hrow hfields shown
  obtain rfl : found = parts := by
    cases hfields
    exact (Except.ok.inj hfound).symm
  have hnone : header.relationships = [] ∧ header.classifiers = [] := by
    unfold DiagramOf.relationships DiagramOf.classifiers
    rw [shown.elements]
    exact ⟨rfl, rfl⟩
  have hempty : StorableElements header := by
    constructor
    · rw [hnone.2]
      exact List.forall_mem_nil _
    · rw [hnone.1]
      exact List.forall_mem_nil _
  obtain ⟨ha₁, -, hsame₁⟩ :=
    classifiers_arranged hclassifiers (arranged_of_empty shown.elements shown.index) hnone.1
  obtain ⟨-, hsame⟩ := relationships_arranged hrelationships ha₁
  have helements := relationships_storable hrelationships htold
    (classifiers_storable hclassifiers htold hempty)
  exact ⟨storable_of_sameHeader (hsame₁.trans hsame) hheader, helements⟩

/-- What a store loads is storable. -/
theorem Holds.storable (h : Holds db uuid (some d)) (hload : Makes (db.load uuid) s (some d') s') :
    Storable d' := by
  have htold := h.told
  cases h with
  | diagram rows _ hrow =>
    have hdocument : db.document? uuid = some (rows.diagram.toDocument (db.elementsOf uuid)) := by
      unfold Database.document?
      rw [hrow, Option.map_some]
    rw [load_of_document? hdocument, map_eq_pure_bind] at hload
    obtain ⟨a, t, hread, hgiven⟩ := makes_bind.mp hload
    obtain ⟨ha, rfl⟩ := makes_pure.mp hgiven
    obtain rfl : a = d' := Option.some.inj ha
    exact storable_of_read rows.diagram_eq htold hread

end Stored

/-! ## Two diagrams of one document -/

section Written

variable {d d' : DiagramOf Value} {s : Supply}

theorem isText_of_toValue_eq {v v' : Value} (h : IsText v')
    (hwrite : Writable.toValue v' = Writable.toValue v) : IsText v := by
  obtain rfl : v' = v := hwrite
  exact h

/-- A document does not tell null from nothing. -/
theorem isText_of_ofOption_eq {v? v'? : Option Value} (h : ∀ v ∈ v'?, IsText v)
    (hwrite : ofOption v'? = ofOption v?) (hslot : Slot v?) : ∀ v ∈ v?, IsText v := by
  cases v? with
  | none => exact nofun
  | some v =>
    cases v'? with
    | none => exact absurd (congrArg some hwrite.symm) hslot
    | some v' =>
      obtain rfl : v' = v := hwrite
      exact h

theorem storable_of_classifier_eq {c c' : ClassifierOf Value} (h : StorableClassifier c')
    (hwrite : writeElement (.classifier c') = writeElement (.classifier c)) (hc : ClassifierSettled c) :
    StorableClassifier c := by
  have hfields := (List.cons.inj (Value.object.inj hwrite)).2
  simp only [classifierFields, List.cons.injEq, Prod.mk.injEq, Value.float.injEq, true_and,
    and_true] at hfields
  obtain ⟨hid, hname, hnamespace, -, -, -, -, -, hsuperclass, -, hx, hy, hwidth, hheight, -⟩ := hfields
  exact {
    id := isText_of_toValue_eq h.id hid
    name := isText_of_toValue_eq h.name hname
    namespaceName := isText_of_toValue_eq h.namespaceName hnamespace
    declaredSuperclass := isText_of_ofOption_eq h.declaredSuperclass hsuperclass hc.declaredSuperclass
    x := hx ▸ h.x
    y := hy ▸ h.y
    width := hwidth ▸ h.width
    height := hheight ▸ h.height }

theorem storable_of_relationship_eq {r r' : RelationshipOf Value} (h : StorableRelationship r')
    (hwrite : writeElement (.relationship r') = writeElement (.relationship r))
    (hr : RelationshipSettled r) : StorableRelationship r := by
  have hfields := (List.cons.inj (Value.object.inj hwrite)).2
  simp only [relationshipFields, List.cons.injEq, Prod.mk.injEq, true_and, and_true] at hfields
  obtain ⟨hid, hname, -, -, -, hsourceRole, htargetRole, hsource, htarget, hsourceTooltip, htargetTooltip, -⟩ :=
    hfields
  exact {
    id := isText_of_toValue_eq h.id hid
    name := isText_of_toValue_eq h.name hname
    sourceRole := isText_of_ofOption_eq h.sourceRole hsourceRole hr.sourceRole
    targetRole := isText_of_ofOption_eq h.targetRole htargetRole hr.targetRole
    sourceMultiplicity := isText_of_ofOption_eq h.sourceMultiplicity hsource hr.sourceMultiplicity
    targetMultiplicity := isText_of_ofOption_eq h.targetMultiplicity htarget hr.targetMultiplicity
    sourceTooltip := isText_of_ofOption_eq h.sourceTooltip hsourceTooltip hr.sourceTooltip
    targetTooltip := isText_of_ofOption_eq h.targetTooltip htargetTooltip hr.targetTooltip }

theorem storable_of_header_eq (h : StorableHeader d') (hwrite : write d' = write d)
    (hd : HeaderSettled d) : StorableHeader d := by
  have hfields := Value.object.inj hwrite
  simp only [List.cons.injEq, Prod.mk.injEq, Value.float.injEq, true_and, and_true] at hfields
  obtain ⟨huuid, hname, hdescription, hauthor, hversion, -, -, hgrid, hbackground, -⟩ := hfields
  exact {
    uuid := isText_of_toValue_eq h.uuid huuid
    name := isText_of_toValue_eq h.name hname
    description := isText_of_toValue_eq h.description hdescription
    author := isText_of_ofOption_eq h.author hauthor hd.author
    version := isText_of_ofOption_eq h.version hversion hd.version
    gridSize := hgrid ▸ h.gridSize
    backgroundColor := isText_of_toValue_eq h.backgroundColor hbackground }

/-- An element of one diagram has its like in the other. -/
theorem exists_element_of_write_eq (hwrite : write d' = write d) {e : ElementOf Value}
    (he : e ∈ d.elements) : ∃ e' ∈ d'.elements, writeElement e' = writeElement e := by
  rw [← List.mem_map, elements_of_write_eq hwrite]
  exact List.mem_map_of_mem he

/-- A document tells whether a diagram that was read is storable. -/
theorem storable_of_write_eq (h : Storable d') (hwrite : write d' = write d) (hd : HeaderSettled d)
    (ha : Arranged d s) : Storable d := by
  refine ⟨storable_of_header_eq h.toStorableHeader hwrite hd, ?_, ?_⟩
  · intro c hc
    obtain ⟨e, he, hsame⟩ := exists_element_of_write_eq hwrite (DiagramOf.mem_classifiers.mp hc)
    cases e with
    | classifier c' =>
      have hc' := h.classifiers c' (DiagramOf.mem_classifiers.mpr he)
      exact storable_of_classifier_eq hc' hsame (ha.classifiers c hc)
    | relationship r =>
      have hsort : showsRelationship (writeElement (.relationship r)) := rfl
      rw [hsame, showsRelationship_write] at hsort
      cases hsort
  · intro r hr
    obtain ⟨e, he, hsame⟩ := exists_element_of_write_eq hwrite (DiagramOf.mem_relationships.mp hr)
    cases e with
    | classifier c =>
      have hsort : showsRelationship (writeElement (.relationship r)) := rfl
      rw [← hsame, showsRelationship_write] at hsort
      cases hsort
    | relationship r' =>
      have hr' := h.relationships r' (DiagramOf.mem_relationships.mpr he)
      exact storable_of_relationship_eq hr' hsame (ha.relationships r hr)

end Written

/-! ## Coming back -/

/-- Whatever an orderly store has, it gives room to a diagram that is saved. -/
theorem Owned.makeRoom {db : Database} (h : Owned db) (uuid : String) :
    (db.makeRoom uuid).classifiersOf uuid = [] ∧ (db.makeRoom uuid).relationshipsOf uuid = [] := by
  refine Database.lawful.rows_makeRoom fun hnone => ?_
  -- without a diagram no row has its uuid
  have hother {owner : String} (howner : (db.row? owner).isSome = true) : ¬ (owner == uuid) = true := by
    intro hsame
    have hrow : db.row? uuid = none := hnone
    rw [beq_iff_eq.mp hsame, hrow] at howner
    cases howner
  exact ⟨List.filter_eq_nil_iff.mpr fun row hmem => hother (h.1 row hmem),
    List.filter_eq_nil_iff.mpr fun row hmem => hother (h.2 row hmem)⟩

/-- A diagram that was read and saved comes back with its document just when its columns have been given
texts and numbers. -/
theorem load_read_iff {doc : Value} {d : DiagramOf Value} {s s' : Supply} {db db' : Database}
    (hread : (read doc).run.run s = (.ok d, s')) (howned : Owned db) (hsave : db.save d = .ok db')
    (r : Supply) : ∃ uuid, column d.uuid = .ok (some uuid) ∧
      ((∃ d' r', (db'.load uuid).run.run r = (.ok (some d'), r') ∧ write d' = write d) ↔ Storable d) := by
  obtain ⟨uuid, hmakes⟩ := save_eq_ok.mp hsave
  have huuid : column d.uuid = .ok (some uuid) := (makes_saving.mp hmakes).1
  have hholds : Holds db' uuid (some d) := holds_saved (howned.makeRoom uuid) hmakes
  obtain ⟨hheader, harranged⟩ := arranged_of_read hread
  refine ⟨uuid, huuid, ?_, ?_⟩
  · intro hback
    obtain ⟨d', r', hload, hwrite⟩ := hback
    exact storable_of_write_eq (hholds.storable hload) hwrite hheader harranged
  · intro hstorable
    have hlossless := hstorable.lossless huuid harranged.sources harranged.targets
    obtain ⟨d', r', hagain, -, hwrite⟩ := harranged.written_again hheader r
    refine ⟨d', r', ?_, hwrite⟩
    rw [load_of_document? (hholds.document?_of_lossless hlossless)]
    exact makes_map hagain

/-- A grid whose size is not a number is lost, and without a size the diagram does not come back. -/
theorem load_read_iff_gridless :
    let doc : Value := .object [("name", .str "shapes"), ("uuid", .str "u"), ("grid_size", .str "nan")]
    ∃ d s' db, (read doc).run.run {} = (.ok d, s') ∧ Database.save {} d = .ok db ∧
      ∀ r : Supply, ¬ ∃ d' r', (db.load "u").run.run r = (.ok (some d'), r') ∧ write d' = write d := by
  intro doc
  obtain ⟨d, s', hread, huuid, hgrid, db, hsave⟩ : ∃ d s', (read doc).run.run {} = (.ok d, s') ∧
      d.uuid = .str "u" ∧ ¬ Held d.gridSize ∧ ∃ db, Database.save {} d = .ok db := by
    refine ⟨_, _, rfl, rfl, ?_, _, rfl⟩
    unfold Held
    decide
  refine ⟨d, s', db, hread, hsave, fun r hback => ?_⟩
  have howned : Owned {} := ⟨List.forall_mem_nil _, List.forall_mem_nil _⟩
  obtain ⟨uuid, hcolumn, hiff⟩ := load_read_iff hread howned hsave r
  rw [huuid] at hcolumn
  cases hcolumn
  exact hgrid (hiff.mp hback).gridSize

end ClassAtlas.Store
