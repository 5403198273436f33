import ClassAtlas.Proofs.SuccessfulReading
import ClassAtlas.Proofs.TableLaws

/-! # The rows of a store

What a store holds under a uuid is one row of the diagram and the rows of its elements, each kind in the
order in which it was written. Saving under a uuid leaves exactly the rows of the saved diagram there,
deleting leaves none, and neither touches a row of any other uuid. All of this rests on the laws of the
tables. -/

namespace ClassAtlas.Store

open Document (Makes makes_bind makes_pure makes_lift bind_eq_ok)

/-! ## What a session does -/

section Steps

variable {db db' : Database} {u : PUnit}

theorem makes_modify {f : Database → Database} :
    Makes (modify f : Session PUnit) db u db' ↔ db' = f db := by
  constructor
  · intro h
    cases h
    rfl
  · rintro rfl
    rfl

theorem makes_get {now : Database} : Makes (get : Session Database) db now db' ↔ now = db ∧ db' = db := by
  constructor
  · intro h
    cases h
    exact ⟨rfl, rfl⟩
  · rintro ⟨rfl, rfl⟩
    rfl

theorem makes_write {ρ : Type} (written : Except SaveError ρ) (put : Database → ρ → Database) :
    Makes (do modify (put · (← written)) : Session PUnit) db u db' ↔
      ∃ row, written = .ok row ∧ db' = put db row := by
  simp only [makes_bind, makes_lift, makes_modify]
  constructor
  · intro hgiven
    obtain ⟨row, _, ⟨hrow, rfl⟩, hput⟩ := hgiven
    exact ⟨row, hrow, hput⟩
  · intro hgiven
    obtain ⟨row, hrow, hput⟩ := hgiven
    exact ⟨row, db, ⟨hrow, rfl⟩, hput⟩

/-- Work on one thing after another that writes a row for each. -/
theorem makes_forM {α ρ : Type} {insert : α → Session PUnit} {write : α → Except SaveError ρ}
    (put : Database → List ρ → Database) (hnil : ∀ db, put db [] = db)
    (hcons : ∀ db row rows, put (put db [row]) rows = put db (row :: rows))
    (hinsert : ∀ x db u db', Makes (insert x) db u db' ↔ ∃ row, write x = .ok row ∧ db' = put db [row])
    {xs : List α} {db db' : Database} {u : PUnit} :
    Makes (xs.forM insert) db u db' ↔
      ∃ rows, List.Forall₂ (fun x row => write x = .ok row) xs rows ∧ db' = put db rows := by
  induction xs generalizing db with
  | nil =>
    show Makes (pure ⟨⟩) db u db' ↔ _
    rw [makes_pure]
    constructor
    · intro hgiven
      exact ⟨[], .nil, by rw [hgiven.2, hnil]⟩
    · intro hgiven
      obtain ⟨rows, hrows, rfl⟩ := hgiven
      cases hrows
      exact ⟨rfl, hnil db⟩
  | cons x xs ih =>
    show Makes (insert x >>= fun _ => xs.forM insert) db u db' ↔ _
    rw [makes_bind]
    constructor
    · intro hgiven
      obtain ⟨_, db₁, hfirst, hrest⟩ := hgiven
      obtain ⟨row, hrow, rfl⟩ := (hinsert x db _ db₁).mp hfirst
      obtain ⟨rows, hrows, rfl⟩ := ih.mp hrest
      exact ⟨row :: rows, .cons hrow hrows, hcons db row rows⟩
    · intro hgiven
      obtain ⟨rows, hrows, rfl⟩ := hgiven
      cases hrows with
      | cons hrow hrows =>
        refine ⟨⟨⟩, _, (hinsert x db _ _).mpr ⟨_, hrow, rfl⟩, ih.mpr ⟨_, hrows, ?_⟩⟩
        exact (hcons db _ _).symm

end Steps

section Session

variable {τ : Type} [Writable τ] {db db' : Database} {uuid : String}

/-- The rows of classifiers in their places. -/
def WrittenClassifiers (uuid : String) : List (ClassifierOf τ × Nat) → List ClassifierRow → Prop :=
  List.Forall₂ fun placed row => ClassifierRow.ofClassifier uuid placed.2 placed.1 = .ok row

/-- The rows of relationships in their places. -/
def WrittenRelationships (uuid : String) :
    List (RelationshipOf τ × Nat) → List RelationshipRow → Prop :=
  List.Forall₂ fun placed row => RelationshipRow.ofRelationship uuid placed.2 placed.1 = .ok row

theorem makes_insertClassifiers {placed : List (ClassifierOf τ × Nat)} {u : PUnit} :
    Makes (placed.forM (insertClassifier uuid)) db u db' ↔ ∃ rows,
      WrittenClassifiers uuid placed rows ∧
        db' = { db with classifiers := db.classifiers ++ rows } := by
  refine makes_forM (fun db rows => { db with classifiers := db.classifiers ++ rows })
    (fun db => ?_) (fun db row rows => ?_) fun placed db u db' => ?_
  · rw [List.append_nil]
  · simp
  · exact makes_write _ fun db row => { db with classifiers := db.classifiers ++ [row] }

theorem makes_insertRelationships {placed : List (RelationshipOf τ × Nat)} {u : PUnit} :
    Makes (placed.forM (insertRelationship uuid)) db u db' ↔ ∃ rows,
      WrittenRelationships uuid placed rows ∧
        db' = { db with relationships := db.relationships ++ rows } := by
  refine makes_forM (fun db rows => { db with relationships := db.relationships ++ rows })
    (fun db => ?_) (fun db row rows => ?_) fun placed db u db' => ?_
  · rw [List.append_nil]
  · simp
  · exact makes_write _ fun db row => { db with relationships := db.relationships ++ [row] }

/-- The rows that a diagram is written as. -/
structure WrittenRows (uuid : String) (updated : Nat) (d : DiagramOf τ) where
  diagram : DiagramRow
  classifiers : List ClassifierRow
  relationships : List RelationshipRow
  diagram_eq : DiagramRow.ofDiagram uuid updated d = .ok diagram
  classifiers_written : WrittenClassifiers uuid (placedClassifiers d.elements) classifiers
  relationships_written : WrittenRelationships uuid (placedRelationships d.elements) relationships

theorem filled_eq_ok {text? : Option String} {text : String} :
    filled text? = .ok text ↔ text? = some text := by
  cases text? <;> simp [filled]

theorem diagrams_makeRoom : (db.makeRoom uuid).diagrams = db.diagrams := by
  unfold Database.makeRoom
  split <;> rfl

theorem clock_makeRoom : (db.makeRoom uuid).clock = db.clock := by
  unfold Database.makeRoom
  split <;> rfl

/-- A save goes through when every column takes its value. Then the rows of the old diagram of this
uuid, if there is one, have given way to those of the new one. -/
theorem makes_saving {d : DiagramOf τ} :
    Makes (saving d) db uuid db' ↔ column d.uuid = .ok (some uuid) ∧
      ∃ rows : WrittenRows uuid (db.stamp uuid d) d, db' = {
        diagrams := Database.putRow rows.diagram db.diagrams
        classifiers := (db.makeRoom uuid).classifiers ++ rows.classifiers
        relationships := (db.makeRoom uuid).relationships ++ rows.relationships
        clock := db.clock + 1 } := by
  simp only [saving, makes_bind, makes_lift, makes_get, makes_modify, makes_insertClassifiers,
    makes_insertRelationships, makes_pure, filled_eq_ok]
  constructor
  · intro hgiven
    obtain ⟨_, _, ⟨huuid, rfl⟩, _, _, ⟨rfl, rfl⟩, hgiven⟩ := hgiven
    obtain ⟨_, _, ⟨rfl, rfl⟩, _, _, rfl, hgiven⟩ := hgiven
    obtain ⟨row, _, ⟨hrow, rfl⟩, _, _, rfl, hgiven⟩ := hgiven
    obtain ⟨_, _, ⟨classifiers, hclassifiers, rfl⟩, hgiven⟩ := hgiven
    obtain ⟨_, _, ⟨relationships, hrelationships, rfl⟩, rfl, rfl⟩ := hgiven
    refine ⟨huuid, ⟨row, classifiers, relationships, hrow, hclassifiers, hrelationships⟩, ?_⟩
    simp only [Database.putDiagram, diagrams_makeRoom, clock_makeRoom]
  · intro hgiven
    obtain ⟨huuid, rows, rfl⟩ := hgiven
    refine ⟨_, db, ⟨huuid, rfl⟩, uuid, db, ⟨rfl, rfl⟩, db, db, ⟨rfl, rfl⟩, ⟨⟩, _, rfl, ?_⟩
    refine ⟨rows.diagram, _, ⟨rows.diagram_eq, rfl⟩, ⟨⟩, _, rfl, ?_⟩
    refine ⟨⟨⟩, _, ⟨_, rows.classifiers_written, rfl⟩, ?_⟩
    refine ⟨⟨⟩, _, ⟨_, rows.relationships_written, rfl⟩, rfl, ?_⟩
    simp only [Database.putDiagram, diagrams_makeRoom, clock_makeRoom]

/-- In terms of tables, a save replaces rows. -/
theorem replace_of_saving {d : DiagramOf τ} (h : Makes (saving d) db uuid db') :
    ∃ rows : WrittenRows uuid (db.stamp uuid d) d,
      db' = Database.tables.replace db uuid rows.diagram rows.classifiers rows.relationships := by
  obtain ⟨-, rows, rfl⟩ := makes_saving.mp h
  refine ⟨rows, ?_⟩
  show _ = Database.mk (Database.putRow rows.diagram (db.makeRoom uuid).diagrams) _ _
    ((db.makeRoom uuid).clock + 1)
  rw [diagrams_makeRoom, clock_makeRoom]
  rfl

theorem transact_of_makes {α : Type} {work : Session α} {a : α} (h : Makes work db a db') :
    db.transact work = (.ok a, db') :=
  Database.lawful.kept db work a db' h

theorem transact_of_fails {α : Type} {work : Session α} {e : SaveError}
    (h : work.run.run db = (.error e, db')) : db.transact work = (.error e, db) :=
  Database.lawful.undone db work e db' h

/-- A save that goes through is a session that comes to its end. -/
theorem save_eq_ok {d : DiagramOf τ} : db.save d = .ok db' ↔ ∃ uuid, Makes (saving d) db uuid db' := by
  unfold Database.save
  constructor
  · intro h
    rcases hwork : (saving d).run.run db with ⟨e | uuid, changed⟩
    · rw [transact_of_fails hwork] at h
      cases h
    · rw [transact_of_makes hwork] at h
      cases h
      exact ⟨uuid, hwork⟩
  · intro hgiven
    obtain ⟨uuid, hmakes⟩ := hgiven
    rw [transact_of_makes hmakes]

end Session

/-! ## Rows know where they belong -/

section Belonging

variable {τ : Type} [Writable τ] {uuid : String} {updated position : Nat}

theorem uuid_of_ofDiagram {d : DiagramOf τ} {row : DiagramRow}
    (h : DiagramRow.ofDiagram uuid updated d = .ok row) : row.uuid = uuid := by
  unfold DiagramRow.ofDiagram at h
  simp only [bind_eq_ok] at h
  obtain ⟨_, -, _, -, _, -, _, -, _, -, _, -, h⟩ := h
  cases h
  rfl

theorem place_of_ofClassifier {c : ClassifierOf τ} {row : ClassifierRow}
    (h : ClassifierRow.ofClassifier uuid position c = .ok row) :
    row.diagram = uuid ∧ row.position = position := by
  unfold ClassifierRow.ofClassifier at h
  simp only [bind_eq_ok] at h
  obtain ⟨_, -, _, -, _, -, _, -, _, -, _, -, h⟩ := h
  cases h
  exact ⟨rfl, rfl⟩

theorem place_of_ofRelationship {r : RelationshipOf τ} {row : RelationshipRow}
    (h : RelationshipRow.ofRelationship uuid position r = .ok row) :
    row.diagram = uuid ∧ row.position = position := by
  unfold RelationshipRow.ofRelationship at h
  simp only [bind_eq_ok] at h
  obtain ⟨_, -, _, -, _, -, _, -, _, -, _, -, _, -, _, -, _, -, _, -, _, -, _, -, _, -, h⟩ := h
  cases h
  exact ⟨rfl, rfl⟩

theorem forall_of_written {α ρ : Type} {related : α → ρ → Prop} {p : ρ → Prop} {xs : List α}
    {rows : List ρ} (h : List.Forall₂ related xs rows) (hp : ∀ x row, related x row → p row) :
    ∀ row ∈ rows, p row := by
  induction h with
  | nil => exact nofun
  | cons hrow _ ih => exact List.forall_mem_cons.mpr ⟨hp _ _ hrow, ih⟩

end Belonging

/-! ## What a store has under a uuid -/

/-- What a store has under a uuid: no row at all, or the rows of one diagram and no others. -/
inductive Holds {τ : Type} [Writable τ] (db : Database) (uuid : String) : Option (DiagramOf τ) → Prop where
  | nothing : db.row? uuid = none → db.classifiersOf uuid = [] → db.relationshipsOf uuid = [] →
      Holds db uuid none
  | diagram {d : DiagramOf τ} {updated : Nat} (rows : WrittenRows uuid updated d) :
      column d.uuid = .ok (some uuid) → db.row? uuid = some rows.diagram →
      db.classifiersOf uuid = rows.classifiers → db.relationshipsOf uuid = rows.relationships →
      Holds db uuid (some d)

/-- Two stores have the same rows under a uuid. -/
structure SameRows (db db' : Database) (uuid : String) : Prop where
  row : db'.row? uuid = db.row? uuid
  classifiers : db'.classifiersOf uuid = db.classifiersOf uuid
  relationships : db'.relationshipsOf uuid = db.relationshipsOf uuid

section Holds

variable {τ : Type} [Writable τ] {db db' : Database} {uuid other : String} {d : DiagramOf τ}
  {d? : Option (DiagramOf τ)}

theorem Holds.congr (h : Holds db uuid d?) (hsame : SameRows db db' uuid) : Holds db' uuid d? := by
  obtain ⟨hrow, hclassifiers, hrelationships⟩ := hsame
  cases h with
  | nothing h₁ h₂ h₃ =>
    exact .nothing (hrow.trans h₁) (hclassifiers.trans h₂) (hrelationships.trans h₃)
  | diagram rows hu h₁ h₂ h₃ =>
    exact .diagram rows hu (hrow.trans h₁) (hclassifiers.trans h₂) (hrelationships.trans h₃)

theorem Holds.row?_isSome (h : Holds db uuid d?) : (db.row? uuid).isSome = d?.isSome := by
  cases h with
  | nothing hrow => rw [hrow]; rfl
  | diagram rows _ hrow => rw [hrow]; rfl

/-- Loading reads no rows but those of its uuid. -/
theorem SameRows.load_eq (h : SameRows db db' uuid) : db'.load uuid = db.load uuid := by
  unfold Database.load Database.document? Database.elementsOf Database.placedElements
  rw [h.row, h.classifiers, h.relationships]

/-! ### Saving -/

theorem sameRows_iff : SameRows db db' uuid ↔ Database.tables.rows db' uuid = Database.tables.rows db uuid := by
  constructor
  · intro h
    show Rows.mk (db'.row? uuid) (db'.classifiersOf uuid) (db'.relationshipsOf uuid) = _
    rw [h.row, h.classifiers, h.relationships]
    rfl
  · intro h
    exact ⟨congrArg Rows.diagram? h, congrArg Rows.classifiers h, congrArg Rows.relationships h⟩

/-- Room is made under the uuid: whatever was there is gone. -/
theorem Holds.makeRoom (h : Holds db uuid d?) :
    (db.makeRoom uuid).classifiersOf uuid = [] ∧ (db.makeRoom uuid).relationshipsOf uuid = [] := by
  refine Database.lawful.rows_makeRoom fun hnone => ?_
  cases h with
  | nothing _ hclassifiers hrelationships => exact ⟨hclassifiers, hrelationships⟩
  | diagram rows _ hrow => cases hrow.symm.trans hnone

theorem WrittenRows.classifiers_owned {updated : Nat} (rows : WrittenRows uuid updated d) :
    ∀ row ∈ rows.classifiers, row.diagram = uuid :=
  forall_of_written rows.classifiers_written fun _ _ hrow => (place_of_ofClassifier hrow).1

theorem WrittenRows.relationships_owned {updated : Nat} (rows : WrittenRows uuid updated d) :
    ∀ row ∈ rows.relationships, row.diagram = uuid :=
  forall_of_written rows.relationships_written fun _ _ hrow => (place_of_ofRelationship hrow).1

/-- Where room is made for a diagram, a save that goes through leaves it under its uuid. -/
theorem holds_saved (hroom : (db.makeRoom uuid).classifiersOf uuid = [] ∧
      (db.makeRoom uuid).relationshipsOf uuid = [])
    (hsave : Makes (saving d) db uuid db') : Holds db' uuid (some d) := by
  have huuid := (makes_saving.mp hsave).1
  obtain ⟨rows, rfl⟩ := replace_of_saving hsave
  have hshown := Database.lawful.rows_replace hroom (uuid_of_ofDiagram rows.diagram_eq)
    rows.classifiers_owned rows.relationships_owned
  exact .diagram rows huuid (congrArg Rows.diagram? hshown) (congrArg Rows.classifiers hshown)
    (congrArg Rows.relationships hshown)

theorem Holds.saved (h : Holds db uuid d?) (hsave : Makes (saving d) db uuid db') :
    Holds db' uuid (some d) :=
  holds_saved h.makeRoom hsave

/-- A save changes no row of another uuid. -/
theorem sameRows_saving (hsave : Makes (saving d) db uuid db') (hne : other ≠ uuid) :
    SameRows db db' other := by
  obtain ⟨rows, rfl⟩ := replace_of_saving hsave
  exact sameRows_iff.mpr (Database.lawful.rows_replace_of_ne hne (uuid_of_ofDiagram rows.diagram_eq)
    rows.classifiers_owned rows.relationships_owned)

/-! ### Deleting -/

/-- Deleting tells whether a diagram was there. -/
theorem Holds.delete_answer (h : Holds db uuid d?) : (db.delete uuid).2 = d?.isSome := by
  unfold Database.delete
  rw [← h.row?_isSome]
  cases db.row? uuid <;> rfl

/-- Deleting a diagram that is there removes its rows. -/
theorem delete_eq (db : Database) (uuid : String) : (db.delete uuid).1 =
    if (db.row? uuid).isNone then db else Database.tables.remove db uuid := by
  unfold Database.delete
  split <;> rfl

/-- After deleting, nothing is left under the uuid. -/
theorem Holds.deleted (h : Holds db uuid d?) :
    Holds (db.delete uuid).1 uuid (none : Option (DiagramOf τ)) := by
  rw [delete_eq]
  cases h with
  | nothing hrow hclassifiers hrelationships =>
    rw [hrow]
    exact .nothing hrow hclassifiers hrelationships
  | diagram rows _ hrow =>
    have hgone : Database.tables.rows (Database.tables.remove db uuid) uuid = {} := by
      rw [Database.lawful.rows_remove, if_pos rfl]
    rw [hrow]
    exact .nothing (congrArg Rows.diagram? hgone) (congrArg Rows.classifiers hgone)
      (congrArg Rows.relationships hgone)

/-- Deleting changes no row of another uuid. -/
theorem sameRows_delete (hne : other ≠ uuid) : SameRows db (db.delete uuid).1 other := by
  rw [delete_eq]
  split
  · exact ⟨rfl, rfl, rfl⟩
  · rw [sameRows_iff, Database.lawful.rows_remove, if_neg hne]

end Holds

end ClassAtlas.Store
