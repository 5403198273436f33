import ClassAtlas.Document.Read
import ClassAtlas.Store.Rows

/-! A store of diagrams under their uuids. Saving clears the rows of a diagram's elements and writes
them anew, all within one session; when a column refuses its value, the session is undone. Reading puts
the rows of both kinds of elements back in order by their places. Summaries come with the newest change
first. -/

namespace ClassAtlas.Store

structure Database where
  diagrams : List DiagramRow := []
  classifiers : List ClassifierRow := []
  relationships : List RelationshipRow := []
  /-- Counts the saves. -/
  clock : Nat := 0

variable {τ : Type} [Writable τ]

/-- The classifiers among elements with their places. -/
def placedClassifiers (elements : List (ElementOf τ)) : List (ClassifierOf τ × Nat) :=
  elements.zipIdx.filterMap fun (e, i) => e.classifier?.map (·, i)

/-- The relationships among elements with their places. -/
def placedRelationships (elements : List (ElementOf τ)) : List (RelationshipOf τ × Nat) :=
  elements.zipIdx.filterMap fun (e, i) => e.relationship?.map (·, i)

/-- Work of one session. It changes the tables as it goes, and what it did before a failure shows in
them until the session is undone. -/
abbrev Session (α : Type) := ExceptT SaveError (StateM Database) α

namespace Database

/-- The row of a diagram. -/
def row? (db : Database) (uuid : String) : Option DiagramRow := db.diagrams.find? (·.uuid == uuid)

/-- Puts a row in the place of the one with its uuid, or at the end. -/
def putRow (row : DiagramRow) : List DiagramRow → List DiagramRow
  | [] => [row]
  | old :: rest => if old.uuid == row.uuid then row :: rest else old :: putRow row rest

/-- Runs a session: its changes stay if it comes to its end, and are undone if it fails. -/
def transact {α : Type} (db : Database) (work : Session α) : Except SaveError α × Database :=
  match work.run.run db with
  | (.ok a, changed) => (.ok a, changed)
  | (.error e, _) => (.error e, db)

/-- Takes out the rows of the elements of a diagram. -/
def clearElements (db : Database) (uuid : String) : Database :=
  { db with
    classifiers := db.classifiers.filter (·.diagram != uuid)
    relationships := db.relationships.filter (·.diagram != uuid) }

/-- Takes out the rows of the elements of a diagram that is there already. -/
def makeRoom (db : Database) (uuid : String) : Database :=
  if (db.row? uuid).isSome then db.clearElements uuid else db

/-- When the row of a diagram that is saved now has last changed. -/
def stamp (db : Database) (uuid : String) (d : DiagramOf τ) : Nat :=
  match db.row? uuid with
  | some old => if old.agrees d then old.updated else db.clock
  | none => db.clock

/-- Writes the row of a diagram, and counts the save. -/
def putDiagram (db : Database) (row : DiagramRow) : Database :=
  { db with diagrams := putRow row db.diagrams, clock := db.clock + 1 }

end Database

/-- Writes the row of a classifier. -/
def insertClassifier (uuid : String) (placed : ClassifierOf τ × Nat) : Session Unit := do
  let row ← ClassifierRow.ofClassifier uuid placed.2 placed.1
  modify fun db => { db with classifiers := db.classifiers ++ [row] }

/-- Writes the row of a relationship. -/
def insertRelationship (uuid : String) (placed : RelationshipOf τ × Nat) : Session Unit := do
  let row ← RelationshipRow.ofRelationship uuid placed.2 placed.1
  modify fun db => { db with relationships := db.relationships ++ [row] }

/-- Saves a diagram in the place of the one with its uuid, and gives the uuid. The elements of the old
one are cleared before anything is written. -/
def saving (d : DiagramOf τ) : Session String := do
  let uuid ← filled (← column d.uuid)
  let updated := (← get).stamp uuid d
  modify (·.makeRoom uuid)
  let row ← DiagramRow.ofDiagram uuid updated d
  modify (·.putDiagram row)
  (placedClassifiers d.elements).forM (insertClassifier uuid)
  (placedRelationships d.elements).forM (insertRelationship uuid)
  return uuid

namespace Database

/-- Saves a diagram; nothing changes if a column refuses its value. -/
def save (db : Database) (d : DiagramOf τ) : Except SaveError Database :=
  match db.transact (saving d) with
  | (.ok _, db) => .ok db
  | (.error e, _) => .error e

/-- Deletes a diagram with its rows; also tells whether it was there. -/
def delete (db : Database) (uuid : String) : Database × Bool :=
  if (db.row? uuid).isNone then (db, false)
  else ({ db.clearElements uuid with diagrams := db.diagrams.filter (·.uuid != uuid) }, true)

/-- The rows of the classifiers of a diagram. -/
def classifiersOf (db : Database) (uuid : String) : List ClassifierRow :=
  db.classifiers.filter (·.diagram == uuid)

/-- The rows of the relationships of a diagram. -/
def relationshipsOf (db : Database) (uuid : String) : List RelationshipRow :=
  db.relationships.filter (·.diagram == uuid)

/-- The elements of a diagram with their places, classifiers first. -/
def placedElements (db : Database) (uuid : String) : List (Nat × Value) :=
  (db.classifiersOf uuid).map (fun r => (r.position, r.toElement)) ++
    (db.relationshipsOf uuid).map fun r => (r.position, r.toElement)

/-- The elements of a diagram in the order of their places. -/
def elementsOf (db : Database) (uuid : String) : List Value :=
  ((db.placedElements uuid).mergeSort fun a b => a.1 ≤ b.1).map (·.2)

/-- The document of a stored diagram. -/
def document? (db : Database) (uuid : String) : Option Value :=
  (db.row? uuid).map fun row => row.toDocument (db.elementsOf uuid)

/-- Loads a diagram; nothing if there is none of this uuid. -/
def load (db : Database) (uuid : String) : Making Document.Fault (Option (DiagramOf Value)) :=
  match db.document? uuid with
  | none => return none
  | some document => return some (← Document.read document)

/-- What a list of diagrams tells of each. -/
structure Summary where
  uuid : String
  name : String
  description : String
  classifierCount : Nat
  relationshipCount : Nat
  /-- When the diagram's own row last changed. -/
  updated : Nat
deriving Repr, DecidableEq

def Summary.toValue (s : Summary) : Value := .object [
  ("uuid", .str s.uuid),
  ("name", .str s.name),
  ("description", .str s.description),
  ("classifier_count", .int s.classifierCount),
  ("relationship_count", .int s.relationshipCount),
  ("updated_at", .int s.updated)]

def summary (db : Database) (row : DiagramRow) : Summary where
  uuid := row.uuid
  name := row.name
  description := row.description.getD ""
  classifierCount := db.classifiers.countP (·.diagram == row.uuid)
  relationshipCount := db.relationships.countP (·.diagram == row.uuid)
  updated := row.updated

/-- The summaries of the diagrams that changed last, the newest first: at most `limit` of them, or all
if the limit is negative. -/
def listRecent (db : Database) (limit : Int) : List Summary :=
  let newest := db.diagrams.mergeSort fun a b => b.updated ≤ a.updated
  let chosen := if limit < 0 then newest else newest.take limit.toNat
  chosen.map db.summary

end Database

end ClassAtlas.Store
