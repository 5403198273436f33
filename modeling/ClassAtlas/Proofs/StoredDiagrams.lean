import ClassAtlas.Proofs.StoredRows
import ClassAtlas.Proofs.TextDocuments

/-! # Stored diagrams

To its user a store is a shelf with a diagram under each uuid. Whatever is asked of it, in any order
and with any failures, loading gives what reading the last saved diagram's document gives, and what is
asked of one uuid never shows under another. A diagram comes back with its elements in two groups:
their places keep the order of the shelf, but the reader of documents puts classifiers first. -/

namespace ClassAtlas.Store

open Document

/-! ## The places of elements -/

section Places

variable {τ β : Type}

/-- The classifiers and the relationships with their places are all the elements with their places. -/
theorem perm_placed (f : ElementOf τ → Nat → β) (es : List (ElementOf τ)) :
    List.Perm (((placedClassifiers es).map fun p => f (.classifier p.1) p.2) ++
        (placedRelationships es).map fun p => f (.relationship p.1) p.2)
      (es.zipIdx.map fun p => f p.1 p.2) := by
  unfold placedClassifiers placedRelationships
  induction es.zipIdx with
  | nil => exact .refl _
  | cons p ps ih =>
    obtain ⟨e, i⟩ := p
    cases e with
    | classifier c => exact .cons _ ih
    | relationship r => exact List.perm_middle.trans (.cons _ ih)

/-- Things with their places, in whatever order, are sorted into the order of their places. -/
theorem mergeSort_placed {xs : List β} {ps : List (Nat × β)}
    (h : ps.Perm (xs.zipIdx.map Prod.swap)) :
    (ps.mergeSort fun a b => a.1 ≤ b.1).map (·.2) = xs := by
  have hsorted : (ps.mergeSort fun a b => a.1 ≤ b.1).Pairwise fun a b => decide (a.1 ≤ b.1) = true :=
    List.pairwise_mergeSort (fun a b c => by simp only [decide_eq_true_eq]; omega)
      (fun a b => by simp only [Bool.or_eq_true, decide_eq_true_eq]; omega) ps
  have hplaced : (xs.zipIdx.map Prod.swap).Pairwise fun a b => decide (a.1 ≤ b.1) = true := by
    have hplaces : (xs.zipIdx.map Prod.snd).Pairwise (· < ·) := by
      rw [List.zipIdx_map_snd]
      exact List.pairwise_lt_range' 1
    rw [List.pairwise_map]
    exact (List.pairwise_map.mp hplaces).imp fun hlt => decide_eq_true (Nat.le_of_lt hlt)
  have hsame : (ps.mergeSort fun a b => a.1 ≤ b.1) = xs.zipIdx.map Prod.swap := by
    have hperm := (List.mergeSort_perm ps fun a b => decide (a.1 ≤ b.1)).trans h
    refine hperm.eq_of_pairwise (fun a b ha hb hab hba => ?_) hsorted hplaced
    obtain ⟨p, hp, rfl⟩ := List.mem_map.mp (hperm.subset ha)
    obtain ⟨q, hq, rfl⟩ := List.mem_map.mp hb
    have hplace : p.2 = q.2 := Nat.le_antisymm (of_decide_eq_true hab) (of_decide_eq_true hba)
    have hthing : some p.1 = some q.1 := by
      rw [← List.mem_zipIdx_iff_getElem?.mp hp, ← List.mem_zipIdx_iff_getElem?.mp hq, hplace]
    rw [Prod.ext (Option.some.inj hthing) hplace]
  rw [hsame, List.map_map]
  exact List.zipIdx_map_fst 0 xs

end Places

/-! ## Rows of texts and numbers -/

section Rows

variable {uuid : String} {position : Nat}

/-- A number that a column keeps. -/
def Held (x : Float) : Prop := x.isNaN = false

/-- A diagram whose numbers are numbers. -/
structure Numeric (d : Diagram) : Prop where
  gridSize : Held d.gridSize
  boxes : ∀ c ∈ d.classifiers, Held c.box.x ∧ Held c.box.y ∧ Held c.box.width ∧ Held c.box.height

theorem ofNumber_numberColumn {x : Float} (h : Held x) : ofNumber (numberColumn x) = .float x := by
  have hnumber : numberColumn x = some x := by
    rw [numberColumn, h, if_neg Bool.false_ne_true]
  rw [hnumber, ofNumber]

theorem optionalColumn_text (text? : Option String) :
    optionalColumn (text?.map Value.str) = .ok text? := by
  cases text? <;> rfl

theorem ofText?_eq (text? : Option String) : Value.ofText? text? = ofOption text? := by
  cases text? <;> rfl

/-- The row of a diagram of texts is read back as its document. -/
theorem ofDiagram_text (updated : Nat) {t : Diagram} (hgrid : Held t.gridSize) :
    ∃ row, DiagramRow.ofDiagram t.uuid updated (t.map Value.str) = .ok row ∧
      row.toDocument (t.elements.map writeElement) = write t := by
  unfold DiagramRow.ofDiagram
  simp only [DiagramOf.map, optionalColumn_text]
  refine ⟨_, rfl, ?_⟩
  simp only [DiagramRow.toDocument, write, ofNumber_numberColumn hgrid, ofText?_eq]
  rfl

theorem ofClassifier_text {c : Classifier} (hx : Held c.box.x) (hy : Held c.box.y)
    (hwidth : Held c.box.width) (hheight : Held c.box.height) :
    ∃ row, ClassifierRow.ofClassifier uuid position (c.map Value.str) = .ok row ∧
      row.toElement = writeElement (.classifier c) := by
  unfold ClassifierRow.ofClassifier
  simp only [ClassifierOf.map, optionalColumn_text, List.map_map, Function.comp_def, writeField_map,
    writeOperation_map]
  refine ⟨_, rfl, ?_⟩
  simp only [ClassifierRow.toElement, writeElement, classifierFields, ofNumber_numberColumn hx,
    ofNumber_numberColumn hy, ofNumber_numberColumn hwidth, ofNumber_numberColumn hheight, ofText?_eq]
  rfl

theorem ofRelationship_text {r : Relationship} :
    ∃ row, RelationshipRow.ofRelationship uuid position (r.map Value.str) = .ok row ∧
      row.toElement = writeElement (.relationship r) := by
  unfold RelationshipRow.ofRelationship
  simp only [RelationshipOf.map, EndpointOf.map, optionalColumn_text]
  refine ⟨_, rfl, ?_⟩
  simp only [RelationshipRow.toElement, writeElement, relationshipFields, ofText?_eq]
  rfl

end Rows

/-! ## Documents of a store -/

section Documents

variable {db : Database} {uuid : String} {t : Diagram}

theorem placedClassifiers_map (es : List Element) :
    placedClassifiers (es.map (·.map Value.str)) =
      (placedClassifiers es).map fun p => (p.1.map Value.str, p.2) := by
  unfold placedClassifiers
  rw [List.zipIdx_map, List.filterMap_map, List.map_filterMap]
  refine congrArg (List.filterMap · es.zipIdx) (funext fun p => ?_)
  obtain ⟨e, i⟩ := p
  cases e <;> rfl

theorem placedRelationships_map (es : List Element) :
    placedRelationships (es.map (·.map Value.str)) =
      (placedRelationships es).map fun p => (p.1.map Value.str, p.2) := by
  unfold placedRelationships
  rw [List.zipIdx_map, List.filterMap_map, List.map_filterMap]
  refine congrArg (List.filterMap · es.zipIdx) (funext fun p => ?_)
  obtain ⟨e, i⟩ := p
  cases e <;> rfl

theorem mem_classifiers_of_placed {τ : Type} {d : DiagramOf τ} {p : ClassifierOf τ × Nat}
    (h : p ∈ placedClassifiers d.elements) : p.1 ∈ d.classifiers := by
  obtain ⟨⟨e, i⟩, he, hp⟩ := List.mem_filterMap.mp h
  obtain ⟨c, hc, rfl⟩ := Option.map_eq_some_iff.mp hp
  have he : e ∈ d.elements := by
    rw [← List.zipIdx_map_fst 0 d.elements]
    exact List.mem_map_of_mem he
  exact List.mem_filterMap.mpr ⟨e, he, hc⟩

theorem mem_relationships_of_placed {τ : Type} {d : DiagramOf τ} {p : RelationshipOf τ × Nat}
    (h : p ∈ placedRelationships d.elements) : p.1 ∈ d.relationships := by
  obtain ⟨⟨e, i⟩, he, hp⟩ := List.mem_filterMap.mp h
  obtain ⟨r, hr, rfl⟩ := Option.map_eq_some_iff.mp hp
  have he : e ∈ d.elements := by
    rw [← List.zipIdx_map_fst 0 d.elements]
    exact List.mem_map_of_mem he
  exact List.mem_filterMap.mpr ⟨e, he, hr⟩

/-- The rows of a diagram, where it has any, tell all that its document does. -/
structure Lossless {τ : Type} [Writable τ] (uuid : String) (d : DiagramOf τ) : Prop where
  diagram : ∀ updated row, DiagramRow.ofDiagram uuid updated d = .ok row →
    row.toDocument (d.elements.map writeElement) = write d
  classifiers : ∀ c ∈ d.classifiers, ∀ position row,
    ClassifierRow.ofClassifier uuid position c = .ok row → row.toElement = writeElement (.classifier c)
  relationships : ∀ r ∈ d.relationships, ∀ position row,
    RelationshipRow.ofRelationship uuid position r = .ok row →
      row.toElement = writeElement (.relationship r)

/-- The elements of a stored diagram, with their places. -/
theorem Holds.placedElements_perm {τ : Type} [Writable τ] {d : DiagramOf τ} (h : Holds db uuid (some d))
    (hrows : Lossless uuid d) :
    (db.placedElements uuid).Perm ((d.elements.map writeElement).zipIdx.map Prod.swap) := by
  cases h with
  | diagram rows huuid hrow hclassifiers hrelationships =>
    have hmemC : ∀ p ∈ placedClassifiers d.elements, p.1 ∈ d.classifiers :=
      fun p => mem_classifiers_of_placed
    have hmemR : ∀ p ∈ placedRelationships d.elements, p.1 ∈ d.relationships :=
      fun p => mem_relationships_of_placed
    have hwrittenC := (List.forall₂_and_left _ _).mpr ⟨hmemC, rows.classifiers_written⟩
    have hwrittenR := (List.forall₂_and_left _ _).mpr ⟨hmemR, rows.relationships_written⟩
    have hC : (db.classifiersOf uuid).map (fun row => (row.position, row.toElement)) =
        (placedClassifiers d.elements).map fun p => (p.2, writeElement (.classifier p.1)) := by
      rw [hclassifiers]
      refine map_eq_of_forall₂ hwrittenC fun p row hp => ?_
      rw [(place_of_ofClassifier hp.2).2, hrows.classifiers p.1 hp.1 p.2 row hp.2]
    have hR : (db.relationshipsOf uuid).map (fun row => (row.position, row.toElement)) =
        (placedRelationships d.elements).map fun p => (p.2, writeElement (.relationship p.1)) := by
      rw [hrelationships]
      refine map_eq_of_forall₂ hwrittenR fun p row hp => ?_
      rw [(place_of_ofRelationship hp.2).2, hrows.relationships p.1 hp.1 p.2 row hp.2]
    unfold Database.placedElements
    rw [hC, hR, List.zipIdx_map, List.map_map]
    exact perm_placed (fun e i => (i, writeElement e)) d.elements

theorem Holds.document?_of_lossless {τ : Type} [Writable τ] {d : DiagramOf τ}
    (h : Holds db uuid (some d)) (hrows : Lossless uuid d) : db.document? uuid = some (write d) := by
  have helements : db.elementsOf uuid = d.elements.map writeElement :=
    mergeSort_placed (h.placedElements_perm hrows)
  cases h with
  | diagram rows _ hrow _ _ =>
    unfold Database.document?
    rw [hrow, helements, Option.map_some, hrows.diagram _ _ rows.diagram_eq]

theorem Numeric.lossless (hnumeric : Numeric t) : Lossless t.uuid (t.map Value.str) := by
  constructor
  · intro updated row hrow
    obtain ⟨row', hrow', hdocument⟩ := ofDiagram_text updated hnumeric.gridSize
    cases hrow.symm.trans hrow'
    have helements : (t.map Value.str).elements.map writeElement = t.elements.map writeElement := by
      show (t.elements.map (·.map Value.str)).map writeElement = _
      rw [List.map_map]
      exact List.map_congr_left fun e _ => writeElement_map e
    rw [helements, hdocument, write_map]
  · rw [classifiers_map, List.forall_mem_map]
    intro c hc position row hrow
    obtain ⟨hx, hy, hwidth, hheight⟩ := hnumeric.boxes c hc
    obtain ⟨row', hrow', helement⟩ := ofClassifier_text hx hy hwidth hheight
    cases hrow.symm.trans hrow'
    exact helement.trans (writeElement_map (.classifier c)).symm
  · rw [relationships_map, List.forall_mem_map]
    intro r hr position row hrow
    obtain ⟨row', hrow', helement⟩ := ofRelationship_text
    cases hrow.symm.trans hrow'
    exact helement.trans (writeElement_map (.relationship r)).symm

/-- A stored diagram of texts has its own document. -/
theorem Holds.document?_eq (h : Holds db uuid (some (t.map Value.str))) (hnumeric : Numeric t) :
    db.document? uuid = some (write t) := by
  obtain rfl : t.uuid = uuid := by
    cases h with
    | diagram _ huuid => exact Option.some.inj (Except.ok.inj huuid)
  rw [h.document?_of_lossless hnumeric.lossless, write_map]

end Documents

/-! ## Reading back -/

section Reading

variable {w : Identity String} {t : Diagram}

/-- A diagram with the background that reading its document gives it. -/
def withBackground (t : Diagram) : Diagram :=
  { t with backgroundColor := if t.backgroundColor = "" then "#FFFFFF" else t.backgroundColor }

theorem read_write_withBackground (t : Diagram) : read (write t) = read (write (withBackground t)) := by
  unfold withBackground
  split
  · rename_i hvoid
    cases t
    subst hvoid
    rfl
  · rfl

/-- Every element has an id. -/
def Identified (t : Diagram) : Prop := ∀ e ∈ t.elements, e.id ≠ ""

theorem Identified.classifiers (h : Identified t) : ∀ c ∈ t.classifiers, c.id ≠ "" :=
  fun _ hc => h _ (DiagramOf.mem_classifiers.mp hc)

theorem Identified.relationships (h : Identified t) : ∀ r ∈ t.relationships, r.id ≠ "" :=
  fun _ hr => h _ (DiagramOf.mem_relationships.mp hr)

theorem reachable_withBackground (h : Reachable w t) : Reachable w (withBackground t) :=
  h.settings (withBackground t) (h.uuid fun s => by simp [Supply.diagramId])

/-- Reading the document of a reachable diagram whose elements have ids restores the diagram. -/
theorem restored_identified (h : Reachable w t) (hids : Identified t) (s : Supply) :
    ∃ d s', Makes (read (write t)) s d s' ∧ s'.drawn = s.drawn ∧
      Restores ((withBackground t).map Value.str) d := by
  have hsettled : Settled ((withBackground t).map Value.str) := by
    refine settled_map (reachable_withBackground h) hids.classifiers hids.relationships ?_
    unfold withBackground
    split
    · show "#FFFFFF" ≠ ""
      decide
    · assumption
  obtain ⟨d, s', hread, hdrawn, hrestores⟩ := hsettled.restored s
  rw [write_map, ← read_write_withBackground] at hread
  exact ⟨d, s', hread, hdrawn, hrestores⟩

/-- Written again, a restored diagram has the document with its classifiers first. -/
theorem read_write_identified (h : Reachable w t) (hids : Identified t) (s : Supply) :
    ∃ d s', Makes (read (write t)) s d s' ∧ s'.drawn = s.drawn ∧
      write d = write (parted (withBackground t)) := by
  obtain ⟨d, s', hread, hdrawn, hrestores⟩ := restored_identified h hids s
  refine ⟨d, s', hread, hdrawn, ?_⟩
  rw [hrestores.write_eq, parted_map, write_map]

end Reading

/-! ## Runs -/

/-- What is asked of a store. -/
inductive Request where
  | save (d : DiagramOf Value)
  | delete (uuid : String)
  | load (uuid : String)

/-- The uuid that a request is about; nothing if it is a diagram without a uuid that serves. -/
def Request.uuid? : Request → Option String
  | save d => (column d.uuid).toOption.join
  | delete uuid => some uuid
  | load uuid => some uuid

/-- A store after a request. -/
def Database.after (db : Database) : Request → Database
  | .save d => (db.transact (saving d)).2
  | .delete uuid => (db.delete uuid).1
  | .load _ => db

/-- The diagrams that a user of a store counts on, by uuid. -/
abbrev Shelf := String → Option (DiagramOf Value)

/-- What a user counts on after a request. Only a save that was answered with a uuid counts. -/
def Shelf.after (shelf : Shelf) (db : Database) : Request → Shelf
  | .save d => match (db.transact (saving d)).1 with
    | .ok uuid => Function.update shelf uuid (some d)
    | .error _ => shelf
  | .delete uuid => Function.update shelf uuid none
  | .load _ => shelf

/-- A store, and what its user counts on, after a request. -/
def answer (now : Database × Shelf) (request : Request) : Database × Shelf :=
  (now.1.after request, now.2.after now.1 request)

/-- A new store, and what its user counts on, after requests. -/
def run (requests : List Request) : Database × Shelf := requests.foldl answer ({}, fun _ => none)

section Runs

variable {db db' : Database} {shelf : Shelf} {uuid : String} {d : DiagramOf Value}
  {d? : Option (DiagramOf Value)} {request : Request}

/-- What a request does. -/
inductive Effect (db : Database) (shelf : Shelf) : Request → Database × Shelf → Prop where
  | saved {d : DiagramOf Value} {uuid : String} {db' : Database} : Makes (saving d) db uuid db' →
      Effect db shelf (.save d) (db', Function.update shelf uuid (some d))
  | refused {d : DiagramOf Value} : Effect db shelf (.save d) (db, shelf)
  | deleted {uuid : String} :
      Effect db shelf (.delete uuid) ((db.delete uuid).1, Function.update shelf uuid none)
  | loaded {uuid : String} : Effect db shelf (.load uuid) (db, shelf)

theorem effect_answer (db : Database) (shelf : Shelf) (request : Request) :
    Effect db shelf request (answer (db, shelf) request) := by
  cases request with
  | load uuid => exact .loaded
  | delete uuid => exact .deleted
  | save d =>
    unfold answer Database.after Shelf.after
    dsimp only
    rcases hwork : (saving d).run.run db with ⟨e | uuid, db'⟩
    · rw [transact_of_fails hwork]
      exact .refused
    · rw [transact_of_makes hwork]
      exact .saved hwork

/-- A request leaves the rows of every uuid but its own as they are. -/
theorem sameRows_after (hne : request.uuid? ≠ some uuid) : SameRows db (db.after request) uuid := by
  show SameRows db (answer (db, fun _ => none) request).1 uuid
  have heffect := effect_answer db (fun _ => none) request
  generalize answer (db, fun _ => none) request = after at heffect ⊢
  cases heffect with
  | refused | loaded => exact ⟨rfl, rfl, rfl⟩
  | deleted => exact sameRows_delete fun h => hne (congrArg some h.symm)
  | @saved d other _ hmakes =>
    have hother : (Request.save d).uuid? = some other := by
      show (column d.uuid).toOption.join = some other
      rw [(makes_saving.mp hmakes).1]
      rfl
    exact sameRows_saving hmakes fun h => hne (hother.trans (congrArg some h.symm))

/-- Where one uuid has changed and all others have not. -/
theorem holds_update (h : ∀ uuid, Holds db uuid (shelf uuid)) (hown : Holds db' uuid d?)
    (hothers : ∀ other, other ≠ uuid → SameRows db db' other) (other : String) :
    Holds db' other (Function.update shelf uuid d? other) := by
  by_cases hne : other = uuid
  · subst hne
    rw [Function.update_self]
    exact hown
  · rw [Function.update_of_ne hne]
    exact (h other).congr (hothers other hne)

/-- After a request a store still has what its user counts on. -/
theorem holds_answer {now : Database × Shelf} (h : ∀ uuid, Holds now.1 uuid (now.2 uuid))
    (request : Request) (uuid : String) :
    Holds (answer now request).1 uuid ((answer now request).2 uuid) := by
  obtain ⟨db, shelf⟩ := now
  have heffect := effect_answer db shelf request
  generalize answer (db, shelf) request = after at heffect ⊢
  cases heffect with
  | refused | loaded => exact h uuid
  | @deleted other => exact holds_update h (h other).deleted (fun _ => sameRows_delete) uuid
  | @saved d other _ hmakes =>
    exact holds_update h ((h other).saved hmakes) (fun _ => sameRows_saving hmakes) uuid

/-- After any requests a store has what its user counts on. -/
theorem holds_run (requests : List Request) :
    ∀ uuid, Holds (run requests).1 uuid ((run requests).2 uuid) := by
  refine List.foldlRecOn (motive := fun now => ∀ uuid, Holds now.1 uuid (now.2 uuid)) requests answer
    (fun _ => ?_) fun _ h request _ => holds_answer h request
  exact .nothing rfl rfl rfl

end Runs

/-! ## The store as a shelf -/

/-- Every row of an element belongs to a diagram that is there. -/
def Owned (db : Database) : Prop :=
  (∀ row ∈ db.classifiers, (db.row? row.diagram).isSome) ∧
    ∀ row ∈ db.relationships, (db.row? row.diagram).isSome

section Shelf

variable {db : Database} {shelf : Shelf} {uuid : String} {d : DiagramOf Value}
  {d? : Option (DiagramOf Value)} {t : Diagram}

/-- Rows under a uuid belong to the diagram that is there. -/
theorem Holds.owned (h : Holds db uuid d?) :
    (∀ row ∈ db.classifiersOf uuid, (db.row? uuid).isSome) ∧
      ∀ row ∈ db.relationshipsOf uuid, (db.row? uuid).isSome := by
  cases h with
  | nothing _ hclassifiers hrelationships =>
    rw [hclassifiers, hrelationships]
    exact ⟨List.forall_mem_nil _, List.forall_mem_nil _⟩
  | diagram rows _ hrow =>
    rw [hrow]
    exact ⟨fun _ _ => rfl, fun _ _ => rfl⟩

theorem owned_of_holds (h : ∀ uuid, Holds db uuid (shelf uuid)) : Owned db := by
  constructor
  · intro row hrow
    exact (h row.diagram).owned.1 row (List.mem_filter.mpr ⟨hrow, beq_self_eq_true _⟩)
  · intro row hrow
    exact (h row.diagram).owned.2 row (List.mem_filter.mpr ⟨hrow, beq_self_eq_true _⟩)

/-- The places of the elements of one diagram are the numbers from zero on, each once. -/
theorem Holds.places_perm (h : Holds db uuid d?) :
    ((db.placedElements uuid).map (·.1)).Perm (List.range (db.placedElements uuid).length) := by
  have hbound : ∃ n, ((db.placedElements uuid).map (·.1)).Perm (List.range n) := by
    unfold Database.placedElements
    cases h with
    | nothing _ hclassifiers hrelationships =>
      rw [hclassifiers, hrelationships]
      exact ⟨0, .refl _⟩
    | @diagram d _ rows _ _ hclassifiers hrelationships =>
      rw [hclassifiers, hrelationships, List.map_append, List.map_map, List.map_map]
      have hC : rows.classifiers.map (·.position) = (placedClassifiers d.elements).map (·.2) :=
        map_eq_of_forall₂ rows.classifiers_written fun _ _ hrow => (place_of_ofClassifier hrow).2
      have hR : rows.relationships.map (·.position) = (placedRelationships d.elements).map (·.2) :=
        map_eq_of_forall₂ rows.relationships_written fun _ _ hrow => (place_of_ofRelationship hrow).2
      have hperm := perm_placed (fun _ i => i) d.elements
      rw [← hC, ← hR, List.zipIdx_map_snd, ← List.range_eq_range'] at hperm
      exact ⟨d.elements.length, hperm⟩
  obtain ⟨n, hperm⟩ := hbound
  have hlength := hperm.length_eq
  rw [List.length_map, List.length_range] at hlength
  rwa [hlength]

theorem load_of_document? {document : Value} (h : db.document? uuid = some document) :
    db.load uuid = some <$> read document := by
  unfold Database.load
  rw [h, map_eq_pure_bind]

theorem makes_map {ε σ α β : Type} {work : ExceptT ε (StateM σ) α} {f : α → β} {s s' : σ} {a : α}
    (h : Makes work s a s') : Makes (f <$> work) s (f a) s' := by
  rw [map_eq_pure_bind]
  exact makes_bind.mpr ⟨a, s', h, makes_pure.mpr ⟨rfl, rfl⟩⟩

/-- A request to save is what saving is, and leaves everything as it was if that fails. -/
theorem after_save (db : Database) (d : DiagramOf Value) : db.after (.save d) =
    match db.save d with
    | .ok changed => changed
    | .error _ => db := by
  show (db.transact (saving d)).2 = _
  unfold Database.save
  rcases hwork : (saving d).run.run db with ⟨e | uuid, db'⟩
  · rw [transact_of_fails hwork]
  · rw [transact_of_makes hwork]

/-- What a store does, seen from outside, when its user counts on the diagrams of a shelf. -/
structure Refines (db : Database) (shelf : Shelf) : Prop where
  /-- Nothing is loaded where nothing is. -/
  absent : ∀ uuid, shelf uuid = none → db.load uuid = pure none
  /-- Loading a diagram of texts and numbers is to read back its document. -/
  present : ∀ uuid t, shelf uuid = some (t.map Value.str) → Numeric t →
    db.load uuid = some <$> read (write t)
  /-- It succeeds, with the very document that reading gives, if the diagram came about properly. -/
  found : ∀ w uuid t, shelf uuid = some (t.map Value.str) → Numeric t → Reachable w t →
    Identified t → ∀ s r : Supply, ∃ d s' d' r', (db.load uuid).run.run s = (.ok (some d), s') ∧
      (read (write t)).run.run r = (.ok d', r') ∧ write d = write d'
  /-- Deleting tells whether there was a diagram. -/
  deletes : ∀ uuid, (db.delete uuid).2 = (shelf uuid).isSome
  /-- What is asked of one uuid does not show under any other. -/
  apart : ∀ (request : Request) uuid, request.uuid? ≠ some uuid →
    (db.after request).load uuid = db.load uuid
  /-- A save that fails changes nothing. -/
  undone : ∀ (d : DiagramOf Value) e, db.save d = .error e → db.after (.save d) = db
  owned : Owned db
  places : ∀ uuid,
    ((db.placedElements uuid).map (·.1)).Perm (List.range (db.placedElements uuid).length)

theorem refines_of_holds (h : ∀ uuid, Holds db uuid (shelf uuid)) : Refines db shelf := by
  have hpresent : ∀ uuid t, shelf uuid = some (t.map Value.str) → Numeric t →
      db.load uuid = some <$> read (write t) := by
    intro uuid t ht hnumeric
    have huuid := h uuid
    rw [ht] at huuid
    exact load_of_document? (huuid.document?_eq hnumeric)
  refine ⟨?_, hpresent, ?_, fun uuid => (h uuid).delete_answer, ?_, ?_, owned_of_holds h,
    fun uuid => (h uuid).places_perm⟩
  · intro uuid hnone
    have hrow := (h uuid).row?_isSome
    rw [hnone, Option.isSome_none, Option.isSome_eq_false_iff, Option.isNone_iff_eq_none] at hrow
    unfold Database.load Database.document?
    rw [hrow]
    rfl
  · intro w uuid t ht hnumeric hreach hids s r
    obtain ⟨d, s', hload, -, hd⟩ := read_write_identified hreach hids s
    obtain ⟨d', r', hread, -, hd'⟩ := read_write_identified hreach hids r
    refine ⟨d, s', d', r', ?_, hread, hd.trans hd'.symm⟩
    rw [hpresent uuid t ht hnumeric]
    exact makes_map hload
  · exact fun request uuid hne => (sameRows_after hne).load_eq
  · intro d e hfailed
    rw [after_save, hfailed]

/-- After any requests, failed ones among them, a store is the shelf that its user counts on. -/
theorem run_refines (requests : List Request) : Refines (run requests).1 (run requests).2 :=
  refines_of_holds (holds_run requests)

/-- The numbers of the standard box are numbers. -/
theorem held_bareClass (key : Nat) (id : String) : Held (bareClass key id).box.x ∧
    Held (bareClass key id).box.y ∧ Held (bareClass key id).box.width ∧
    Held (bareClass key id).box.height := by
  show Held Box.standard.x ∧ Held Box.standard.y ∧ Held Box.standard.width ∧ Held Box.standard.height
  unfold Held
  decide

/-- A diagram is still there after a save that failed for its want of a name. -/
theorem run_refines_nameless :
    let t : Diagram := { (DiagramOf.empty "shapes" "" none none (some "u") {}).1 with
      elements := [.classifier (bareClass 0 "s")], index := [("s", 0)] }
    let nameless : DiagramOf Value := { t.map Value.str with name := .null, elements := [] }
    let requests := [Request.save (t.map Value.str), .save nameless, .delete "v"]
    (run requests).2 "u" = some (t.map Value.str) ∧
      (run requests).1.load "u" = some <$> read (write t) ∧
      ((run requests).1.delete "u").2 = true ∧ ((run requests).1.delete "v").2 = false := by
  intro t nameless requests
  have hkept : (run requests).2 "u" = some (t.map Value.str) := rfl
  have hgone : (run requests).2 "v" = none := rfl
  have hnumeric : Numeric t :=
    ⟨by unfold Held; decide, fun _ hc => List.mem_singleton.mp hc ▸ held_bareClass 0 "s"⟩
  have h := run_refines requests
  refine ⟨hkept, h.present "u" t hkept hnumeric, ?_, ?_⟩
  · rw [h.deletes, hkept]
    rfl
  · rw [h.deletes, hgone]
    rfl

end Shelf

/-! ## The order of elements -/

section Order

variable {τ : Type}

/-- No relationship stands before a classifier. -/
def ClassifiersFirst (es : List (ElementOf τ)) : Prop :=
  es.Pairwise fun a b => a.relationship?.isSome → b.relationship?.isSome

theorem relationships_only {es : List (ElementOf τ)} (h : ∀ e ∈ es, e.relationship?.isSome) :
    es.filterMap (·.classifier?) = [] ∧ (es.filterMap (·.relationship?)).map .relationship = es := by
  induction es with
  | nil => exact ⟨rfl, rfl⟩
  | cons e es ih =>
    obtain ⟨hhead, htail⟩ := List.forall_mem_cons.mp h
    obtain ⟨hnone, hall⟩ := ih htail
    cases e with
    | classifier c => cases hhead
    | relationship r => exact ⟨hnone, congrArg (_ :: ·) hall⟩

theorem classifiersFirst_append {cs : List (ClassifierOf τ)} {rs : List (RelationshipOf τ)} :
    ClassifiersFirst (cs.map .classifier ++ rs.map .relationship) := by
  refine List.pairwise_append.mpr ⟨?_, ?_, ?_⟩
  · exact List.pairwise_map.mpr (List.pairwise_of_forall fun _ _ h => absurd h Bool.false_ne_true)
  · exact List.pairwise_map.mpr (List.pairwise_of_forall fun _ _ _ => rfl)
  · intro a _ b hb _
    obtain ⟨r, -, rfl⟩ := List.mem_map.mp hb
    rfl

theorem classifiersFirst_parted (d : DiagramOf τ) : ClassifiersFirst (parted d).elements :=
  classifiersFirst_append

/-- Putting classifiers first changes nothing where they are first. -/
theorem parted_elements {d : DiagramOf τ} (h : ClassifiersFirst d.elements) :
    (parted d).elements = d.elements := by
  show (d.elements.filterMap _).map _ ++ (d.elements.filterMap _).map _ = d.elements
  unfold ClassifiersFirst at h
  generalize d.elements = es at h ⊢
  induction es with
  | nil => rfl
  | cons e es ih =>
    obtain ⟨hhead, htail⟩ := List.pairwise_cons.mp h
    cases e with
    | classifier c => exact congrArg (_ :: ·) (ih htail)
    | relationship r =>
      obtain ⟨hnone, hall⟩ := relationships_only fun e he => hhead e he rfl
      show (es.filterMap _).map _ ++ ElementOf.relationship r :: (es.filterMap _).map _ = _
      rw [hnone, hall]
      rfl

variable [Writable τ]

/-- Whether the document of an element is that of a relationship. -/
def showsRelationship (v : Value) : Prop := v.get? "element_type" = some (.str "relationship")

theorem showsRelationship_write (e : ElementOf τ) :
    showsRelationship (writeElement e) ↔ e.relationship?.isSome := by
  cases e with
  | classifier c =>
    refine ⟨fun h => ?_, fun h => absurd h Bool.false_ne_true⟩
    exact absurd (Value.str.inj (Option.some.inj h)) (by decide)
  | relationship r => exact ⟨fun _ => rfl, fun _ => rfl⟩

/-- Documents show whether classifiers are first. -/
theorem classifiersFirst_write {es : List (ElementOf τ)} : ClassifiersFirst es ↔
    (es.map writeElement).Pairwise fun a b => showsRelationship a → showsRelationship b := by
  rw [List.pairwise_map]
  simp only [showsRelationship_write]
  rfl

theorem elements_of_write_eq {σ : Type} [Writable σ] {d : DiagramOf τ} {d' : DiagramOf σ}
    (h : write d = write d') : d.elements.map writeElement = d'.elements.map writeElement := by
  have helements : (write d).get? "elements" = (write d').get? "elements" := by rw [h]
  exact Value.list.inj (Option.some.inj helements)

theorem background_of_write_eq {σ : Type} [Writable σ] {d : DiagramOf τ} {d' : DiagramOf σ}
    (h : write d = write d') :
    Writable.toValue d.backgroundColor = Writable.toValue d'.backgroundColor := by
  have hbackground : (write d).get? "background_color" = (write d').get? "background_color" := by rw [h]
  exact Option.some.inj hbackground

theorem ids_of_write_eq {σ : Type} [Writable σ] {d : DiagramOf τ} {d' : DiagramOf σ}
    (h : write d = write d') :
    d.elements.map (Writable.toValue ·.id) = d'.elements.map (Writable.toValue ·.id) := by
  have hid : ∀ {ρ : Type} [Writable ρ] (e : ElementOf ρ),
      ((writeElement e).get? "id").getD .null = Writable.toValue e.id := by
    intro ρ _ e
    cases e <;> rfl
  have hmap := congrArg (List.map fun v => (v.get? "id").getD .null) (elements_of_write_eq h)
  simpa only [List.map_map, Function.comp_def, hid] using hmap

end Order

section Saved

variable {w : Identity String} {t : Diagram}

theorem exists_written {α ρ : Type} {related : α → ρ → Prop} {xs : List α}
    (h : ∀ x ∈ xs, ∃ row, related x row) : ∃ rows, List.Forall₂ related xs rows := by
  induction xs with
  | nil => exact ⟨[], .nil⟩
  | cons x xs ih =>
    obtain ⟨⟨row, hrow⟩, hrest⟩ := List.forall_mem_cons.mp h
    obtain ⟨rows, hrows⟩ := ih hrest
    exact ⟨row :: rows, .cons hrow hrows⟩

/-- A diagram of texts and numbers can be saved in any store. -/
theorem exists_makes_saving (db : Database) (hnumeric : Numeric t) :
    ∃ db', Makes (saving (t.map Value.str)) db t.uuid db' := by
  have helements : (t.map Value.str).elements = t.elements.map (·.map Value.str) := rfl
  obtain ⟨diagram, hdiagram, -⟩ :=
    ofDiagram_text (db.stamp t.uuid (t.map Value.str)) hnumeric.gridSize
  obtain ⟨classifiers, hclassifiers⟩ : ∃ rows, WrittenClassifiers t.uuid
      (placedClassifiers (t.map Value.str).elements) rows := by
    rw [helements, placedClassifiers_map]
    refine exists_written fun p' hp' => ?_
    obtain ⟨p, hp, rfl⟩ := List.mem_map.mp hp'
    obtain ⟨hx, hy, hwidth, hheight⟩ := hnumeric.boxes _ (mem_classifiers_of_placed hp)
    obtain ⟨row, hrow, -⟩ := ofClassifier_text hx hy hwidth hheight
    exact ⟨row, hrow⟩
  obtain ⟨relationships, hrelationships⟩ : ∃ rows, WrittenRelationships t.uuid
      (placedRelationships (t.map Value.str).elements) rows := by
    rw [helements, placedRelationships_map]
    refine exists_written fun p' hp' => ?_
    obtain ⟨p, -, rfl⟩ := List.mem_map.mp hp'
    obtain ⟨row, hrow, -⟩ := ofRelationship_text
    exact ⟨row, hrow⟩
  exact ⟨_, makes_saving.mpr ⟨rfl,
    ⟨diagram, classifiers, relationships, hdiagram, hclassifiers, hrelationships⟩, rfl⟩⟩

/-- The document that a loaded diagram is written as is the one that was saved just when the elements
need no other order and the background no other colour. -/
theorem write_parted_eq_iff :
    write (parted (withBackground t)) = write t ↔
      ClassifiersFirst t.elements ∧ t.backgroundColor ≠ "" := by
  constructor
  · intro h
    constructor
    · rw [classifiersFirst_write, ← elements_of_write_eq h, ← classifiersFirst_write]
      exact classifiersFirst_parted _
    · intro hvoid
      have hbackground : (withBackground t).backgroundColor = t.backgroundColor :=
        Value.str.inj (background_of_write_eq h)
      rw [withBackground, if_pos hvoid, hvoid] at hbackground
      exact absurd (show "#FFFFFF" = "" from hbackground) (by decide)
  · intro hgiven
    obtain ⟨hfirst, hbackground⟩ := hgiven
    have hsame : withBackground t = t := by
      rw [withBackground, if_neg hbackground]
    have helements := parted_elements hfirst
    rw [hsame]
    unfold write
    rw [helements]
    rfl

/-- Saving a reachable diagram, in whatever store, goes through, and loading it gives its classifiers
in their order and after them its relationships in theirs. So its document is the one that was saved
just when no relationship stood before a classifier, and the background was not empty. -/
theorem load_saved (hreach : Reachable w t) (hids : Identified t) (hnumeric : Numeric t)
    (requests : List Request) (s : Supply) :
    ∃ db, (run requests).1.save (t.map Value.str) = .ok db ∧
      ∃ d s', (db.load t.uuid).run.run s = (.ok (some d), s') ∧ s'.drawn = s.drawn ∧
        d.elements.map (·.id) = (parted t).elements.map (Value.str ·.id) ∧
        write d = write (parted (withBackground t)) ∧
        (write d = write t ↔ ClassifiersFirst t.elements ∧ t.backgroundColor ≠ "") := by
  obtain ⟨db, hmakes⟩ := exists_makes_saving (run requests).1 hnumeric
  have hstored := (holds_run requests t.uuid).saved hmakes
  obtain ⟨d, s', hread, hdrawn, hdocument⟩ := read_write_identified hreach hids s
  have hids := ids_of_write_eq hdocument
  refine ⟨db, ?_, d, s', ?_, hdrawn, hids, hdocument, ?_⟩
  · exact save_eq_ok.mpr ⟨_, hmakes⟩
  · rw [load_of_document? (hstored.document?_eq hnumeric)]
    exact makes_map hread
  · rw [hdocument]
    exact write_parted_eq_iff

end Saved

/-- A relationship that stands before a classifier stands behind it after loading. -/
theorem load_saved_reordered :
    let shape := bareClass 0 "s"
    let group := bareClass 1 "g"
    let loop := bareEdge 0 shape shape .dependency
    let w : Identity String := ⟨fun key => if key = 0 then "s" else "g", fun _ => 0, fun _ => 0⟩
    let t : Diagram := { (DiagramOf.empty "shapes" "" none none (some "u") {}).1 with
      elements := [.classifier shape, .relationship loop, .classifier group]
      index := [("s", 0), ("g", 1)] }
    Reachable w t ∧ Identified t ∧ Numeric t ∧ t.elements.map (·.id) = ["s", "e", "g"] ∧
      ∃ db, (run []).1.save (t.map Value.str) = .ok db ∧
        ∃ d s', (db.load "u").run.run {} = (.ok (some d), s') ∧
          d.elements.map (·.id) = [.str "s", .str "g", .str "e"] ∧ write d ≠ write t := by
  intro shape group loop w t
  have hreach : Reachable w t := by
    have hnew : Reachable w (DiagramOf.empty "shapes" "" none none (some "u") {}).1 := .new ..
    have hshape := hnew.withClassifier (c := shape) rfl rfl
    have hmem : shape ∈ [shape] := List.mem_cons_self
    have hloop := hshape.withRelationship (r := loop) hmem hmem rfl rfl ⟨rfl, rfl⟩ rfl rfl
    exact hloop.withClassifier (c := group) rfl rfl
  have hids : Identified t := by
    show ∀ e ∈ [ElementOf.classifier shape, .relationship loop, .classifier group], e.id ≠ ""
    simp [shape, group, loop, bareClass, bareEdge, ElementOf.id]
  have hnumeric : Numeric t := by
    refine ⟨by unfold Held; decide, ?_⟩
    show ∀ c ∈ [shape, group], _
    simpa using ⟨held_bareClass 0 "s", held_bareClass 1 "g"⟩
  obtain ⟨db, hsave, d, s', hload, -, helements, -, hsame⟩ := load_saved hreach hids hnumeric [] {}
  refine ⟨hreach, hids, hnumeric, rfl, db, hsave, d, s', hload, helements, fun h => ?_⟩
  obtain ⟨hfirst, -⟩ := hsame.mp h
  have hloop : ClassifiersFirst [ElementOf.relationship loop, .classifier group] :=
    List.Pairwise.of_cons hfirst
  exact absurd (List.rel_of_pairwise_cons hloop List.mem_cons_self rfl) Bool.false_ne_true

end ClassAtlas.Store
