import ClassAtlas.Store.Database

/-! # Laws of tables

Saving, deleting and reading rely on little in the tables below them: a row that was written is there until it
is taken out, what is done under one uuid does not show under another, and a session that fails leaves no
trace. These laws are named here, with what follows from them for a diagram whose rows are replaced or removed;
the tables of this store obey them. -/

namespace ClassAtlas.Store

/-! ## What is relied on -/

/-- The rows that a store shows under a uuid. -/
structure Rows where
  diagram? : Option DiagramRow := none
  classifiers : List ClassifierRow := []
  relationships : List RelationshipRow := []

/-- A store of tables: what it shows under a uuid, what can be done to it, and how it runs a session. -/
structure Tables (σ : Type) where
  rows : σ → String → Rows
  putDiagram : σ → DiagramRow → σ
  dropDiagram : σ → String → σ
  addClassifiers : σ → List ClassifierRow → σ
  addRelationships : σ → List RelationshipRow → σ
  /-- Takes out the rows of the elements of a diagram. -/
  clearElements : σ → String → σ
  transact : {α : Type} → σ → ExceptT SaveError (StateM σ) α → Except SaveError α × σ

namespace Tables

variable {σ α : Type}

structure Lawful (T : Tables σ) : Prop where
  rows_putDiagram : ∀ s row u, T.rows (T.putDiagram s row) u =
    if u = row.uuid then { T.rows s u with diagram? := some row } else T.rows s u
  rows_dropDiagram : ∀ s uuid u, T.rows (T.dropDiagram s uuid) u =
    if u = uuid then { T.rows s u with diagram? := none } else T.rows s u
  rows_addClassifiers : ∀ s added u, T.rows (T.addClassifiers s added) u =
    { T.rows s u with classifiers := (T.rows s u).classifiers ++ added.filter (·.diagram == u) }
  rows_addRelationships : ∀ s added u, T.rows (T.addRelationships s added) u =
    { T.rows s u with relationships := (T.rows s u).relationships ++ added.filter (·.diagram == u) }
  rows_clearElements : ∀ s uuid u, T.rows (T.clearElements s uuid) u =
    if u = uuid then { diagram? := (T.rows s u).diagram? } else T.rows s u
  /-- A session that comes to its end is kept. -/
  kept : ∀ {α : Type} s (work : ExceptT SaveError (StateM σ) α) a s',
    work.run.run s = (.ok a, s') → T.transact s work = (.ok a, s')
  /-- A session that fails is undone. -/
  undone : ∀ {α : Type} s (work : ExceptT SaveError (StateM σ) α) e s',
    work.run.run s = (.error e, s') → T.transact s work = (.error e, s)

variable (T : Tables σ)

/-- Takes out the rows of the elements of a diagram that is there already. -/
def makeRoom (s : σ) (uuid : String) : σ :=
  if (T.rows s uuid).diagram?.isSome then T.clearElements s uuid else s

/-- Writes the rows of a diagram in the place of those that were there. -/
def replace (s : σ) (uuid : String) (new : DiagramRow) (classifiers : List ClassifierRow)
    (relationships : List RelationshipRow) : σ :=
  T.addRelationships (T.addClassifiers (T.putDiagram (T.makeRoom s uuid) new) classifiers) relationships

/-- Takes out all rows of a diagram. -/
def remove (s : σ) (uuid : String) : σ := T.dropDiagram (T.clearElements s uuid) uuid

/-! ## What follows -/

section Lawful

variable {T} {s : σ} {uuid u : String} {new : DiagramRow} {classifiers : List ClassifierRow}
  {relationships : List RelationshipRow} (h : T.Lawful)

include h

theorem Lawful.rows_makeRoom_of_ne (hne : u ≠ uuid) : T.rows (T.makeRoom s uuid) u = T.rows s u := by
  unfold makeRoom
  split
  · rw [h.rows_clearElements, if_neg hne]
  · rfl

/-- Room is made if elements are there only with their diagram. -/
theorem Lawful.rows_makeRoom (hempty : (T.rows s uuid).diagram? = none →
      (T.rows s uuid).classifiers = [] ∧ (T.rows s uuid).relationships = []) :
    (T.rows (T.makeRoom s uuid) uuid).classifiers = [] ∧
      (T.rows (T.makeRoom s uuid) uuid).relationships = [] := by
  unfold makeRoom
  split
  · rw [h.rows_clearElements, if_pos rfl]
    exact ⟨rfl, rfl⟩
  · rename_i hnone
    rw [Bool.not_eq_true, Option.isSome_eq_false_iff, Option.isNone_iff_eq_none] at hnone
    exact hempty hnone

/-- Where there is room, exactly the new rows are shown. -/
theorem Lawful.rows_replace (hroom : (T.rows (T.makeRoom s uuid) uuid).classifiers = [] ∧
      (T.rows (T.makeRoom s uuid) uuid).relationships = [])
    (hnew : new.uuid = uuid) (hclassifiers : ∀ row ∈ classifiers, row.diagram = uuid)
    (hrelationships : ∀ row ∈ relationships, row.diagram = uuid) :
    T.rows (T.replace s uuid new classifiers relationships) uuid = ⟨some new, classifiers, relationships⟩ := by
  have hC : classifiers.filter (·.diagram == uuid) = classifiers :=
    List.filter_eq_self.mpr fun row hrow => beq_iff_eq.mpr (hclassifiers row hrow)
  have hR : relationships.filter (·.diagram == uuid) = relationships :=
    List.filter_eq_self.mpr fun row hrow => beq_iff_eq.mpr (hrelationships row hrow)
  rw [replace, h.rows_addRelationships, h.rows_addClassifiers, h.rows_putDiagram, if_pos hnew.symm, hC, hR,
    hroom.1, hroom.2, List.nil_append, List.nil_append]

/-- Nothing changes under other uuids. -/
theorem Lawful.rows_replace_of_ne (hne : u ≠ uuid) (hnew : new.uuid = uuid)
    (hclassifiers : ∀ row ∈ classifiers, row.diagram = uuid)
    (hrelationships : ∀ row ∈ relationships, row.diagram = uuid) :
    T.rows (T.replace s uuid new classifiers relationships) u = T.rows s u := by
  have hother {owner : String} (howner : owner = uuid) : ¬ (owner == u) = true := fun hsame =>
    hne ((beq_iff_eq.mp hsame).symm.trans howner)
  have hC : classifiers.filter (·.diagram == u) = [] :=
    List.filter_eq_nil_iff.mpr fun row hrow => hother (hclassifiers row hrow)
  have hR : relationships.filter (·.diagram == u) = [] :=
    List.filter_eq_nil_iff.mpr fun row hrow => hother (hrelationships row hrow)
  rw [replace, h.rows_addRelationships, h.rows_addClassifiers, h.rows_putDiagram, hnew, if_neg hne, hC, hR,
    List.append_nil, List.append_nil, h.rows_makeRoom_of_ne hne]

theorem Lawful.rows_remove : T.rows (T.remove s uuid) u = if u = uuid then {} else T.rows s u := by
  rw [remove, h.rows_dropDiagram, h.rows_clearElements]
  split <;> rfl

end Lawful

end Tables

/-! ## The tables of this store -/

section Filtered

variable {ρ : Type} {owner : ρ → String} {rows : List ρ} {u uuid : String}

theorem filter_cleared : (rows.filter (owner · != uuid)).filter (owner · == u) =
    if u = uuid then [] else rows.filter (owner · == u) := by
  rw [List.filter_filter]
  split
  · rename_i hsame
    subst hsame
    rw [List.filter_eq_nil_iff]
    intro row _
    cases h : owner row == u <;> simp [h, bne]
  · rename_i hne
    refine List.filter_congr fun row _ => ?_
    by_cases hrow : owner row = u
    · simp [hrow, hne]
    · simp [hrow]

end Filtered

section DiagramRows

variable {row : DiagramRow} {rows : List DiagramRow} {u uuid : String}

theorem find?_putRow : (Database.putRow row rows).find? (·.uuid == u) =
    if u = row.uuid then some row else rows.find? (·.uuid == u) := by
  split
  · rename_i hsame
    subst hsame
    induction rows with
    | nil => simp [Database.putRow]
    | cons old rest ih =>
      unfold Database.putRow
      cases h : old.uuid == row.uuid with
      | true => simp
      | false => simpa [h] using ih
  · rename_i hne
    have hrow : (row.uuid == u) = false := beq_false_of_ne (Ne.symm hne)
    induction rows with
    | nil => simp [Database.putRow, hrow]
    | cons old rest ih =>
      unfold Database.putRow
      cases hold : old.uuid == row.uuid with
      | true =>
        have hother : (old.uuid == u) = false := by rwa [beq_iff_eq.mp hold]
        simp [hrow, hother]
      | false => rw [if_neg Bool.false_ne_true, List.find?_cons, List.find?_cons, ih]

theorem find?_dropped : (rows.filter (·.uuid != uuid)).find? (·.uuid == u) =
    if u = uuid then none else rows.find? (·.uuid == u) := by
  split
  · rename_i hsame
    subst hsame
    rw [List.find?_eq_none]
    intro row hrow
    simpa [bne] using (List.mem_filter.mp hrow).2
  · rename_i hne
    rw [List.find?_filter]
    congr 1
    funext row
    by_cases hrow : row.uuid = u
    · simp [hrow, hne]
    · simp [hrow]

end DiagramRows

namespace Database

def tables : Tables Database where
  rows db uuid := ⟨db.row? uuid, db.classifiersOf uuid, db.relationshipsOf uuid⟩
  putDiagram := putDiagram
  dropDiagram db uuid := { db with diagrams := db.diagrams.filter (·.uuid != uuid) }
  addClassifiers db added := { db with classifiers := db.classifiers ++ added }
  addRelationships db added := { db with relationships := db.relationships ++ added }
  clearElements := clearElements
  transact := transact

theorem lawful : tables.Lawful where
  rows_putDiagram db row u := by
    have hrow : (db.putDiagram row).row? u = if u = row.uuid then some row else db.row? u := find?_putRow
    show Rows.mk ((db.putDiagram row).row? u) _ _ = _
    rw [hrow]
    split <;> rfl
  rows_dropDiagram db uuid u := by
    have hrow : (tables.dropDiagram db uuid).row? u = if u = uuid then none else db.row? u := find?_dropped
    show Rows.mk ((tables.dropDiagram db uuid).row? u) _ _ = _
    rw [hrow]
    split <;> rfl
  rows_addClassifiers db added u := by
    show Rows.mk _ ((db.classifiers ++ added).filter _) _ = _
    rw [List.filter_append]
    rfl
  rows_addRelationships db added u := by
    show Rows.mk _ _ ((db.relationships ++ added).filter _) = _
    rw [List.filter_append]
    rfl
  rows_clearElements db uuid u := by
    show Rows.mk _ ((db.classifiers.filter _).filter _) ((db.relationships.filter _).filter _) = _
    rw [filter_cleared, filter_cleared]
    split <;> rfl
  kept db work a db' hwork := by
    show db.transact work = _
    rw [transact, hwork]
  undone db work e db' hwork := by
    show db.transact work = _
    rw [transact, hwork]

end Database

end ClassAtlas.Store
