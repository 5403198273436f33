import ClassAtlas.Diagram.Element

/-! Class diagrams. A diagram is one ordered list of elements with an index from classifier ids to
keys. Elements come and go only through `addClassifier`, `removeClassifier`, `addRelationship` and
`removeRelationship`: a relationship enters only after both of its ends, and leaves with either. A
refused change gives no new diagram, so nothing is ever half done. -/

namespace ClassAtlas

structure DiagramOf (τ : Type) where
  uuid : τ
  name : τ
  description : τ
  author : Option τ := none
  version : Option τ := none
  showGrid : Bool := true
  snapToGrid : Bool := true
  gridSize : Float := 20.0
  backgroundColor : τ
  elements : List (ElementOf τ) := []
  /-- The key of the classifier that was entered under an id. -/
  index : List (τ × Nat) := []

abbrev Diagram := DiagramOf String

/-- Which end of a relationship. -/
inductive Side where
  | source
  | target
deriving Repr, DecidableEq

def Side.word : Side → String
  | source => "source"
  | target => "target"

/-- Why a diagram refuses a change; the texts are those of the diagram and elements at that time. -/
inductive Refusal where
  | alreadyPart (element diagram : String)
  | notPart (element diagram : String)
  | idTaken (id diagram : String)
  | dangling (relationship : String) (side : Side) (classifier diagram : String)
deriving Repr, DecidableEq

def Refusal.message : Refusal → String
  | alreadyPart element diagram => element ++ " is already part of diagram '" ++ diagram ++ "'"
  | notPart element diagram => element ++ " is not part of diagram '" ++ diagram ++ "'"
  | idTaken id diagram =>
    "Classifier id " ++ id ++ " is already used in diagram '" ++ diagram ++ "'"
  | dangling relationship side classifier diagram =>
    "Relationship '" ++ relationship ++ "' " ++ side.word ++ " " ++ classifier ++
      " is not part of diagram '" ++ diagram ++ "'"

namespace DiagramOf

variable {τ σ : Type}

def classifiers (d : DiagramOf τ) : List (ClassifierOf τ) := d.elements.filterMap (·.classifier?)

def relationships (d : DiagramOf τ) : List (RelationshipOf τ) :=
  d.elements.filterMap (·.relationship?)

/-- The key entered under an id. -/
def keyOf? [BEq τ] (d : DiagramOf τ) (id : τ) : Option Nat := d.index.lookup id

/-- The classifier entered under an id. -/
def classifierById? [BEq τ] (d : DiagramOf τ) (id : τ) : Option (ClassifierOf τ) :=
  (d.keyOf? id).bind fun key => d.classifiers.find? (·.key == key)

/-- The first classifier of a name, within a namespace if one is given. -/
def find? [BEq τ] (d : DiagramOf τ) (name : τ) (namespaceName : Option τ := none) :
    Option (ClassifierOf τ) :=
  d.classifiers.find? fun c => c.name == name &&
    match namespaceName with
    | none => true
    | some n => c.namespaceName == n

/-- The relationships that start at a classifier, of one kind if one is given. -/
def outgoing (d : DiagramOf τ) (key : Nat) (kind : Option RelationshipKind := none) :
    List (RelationshipOf τ) :=
  d.relationships.filter fun r => r.source.key == key &&
    match kind with
    | none => true
    | some k => r.kind == k

/-- Whether the classifier of this key is the one entered under this id. -/
def holdsClassifier [BEq τ] (d : DiagramOf τ) (id : τ) (key : Nat) : Bool := d.keyOf? id == some key

/-- Whether the relationship of this key stands in the diagram. -/
def holdsRelationship (d : DiagramOf τ) (key : Nat) : Bool :=
  d.elements.any (·.isRelationship key)

def addClassifier [Label τ] (d : DiagramOf τ) (c : ClassifierOf τ) :
    Except Refusal (DiagramOf τ) :=
  if d.holdsClassifier c.id c.key then .error (.alreadyPart c.describe (Label.shown d.name))
  else if (d.keyOf? c.id).isSome then
    .error (.idTaken (Label.shown c.id) (Label.shown d.name))
  else .ok { d with
    elements := d.elements ++ [.classifier c]
    index := d.index ++ [(c.id, c.key)] }

/-- Whether an element goes when the classifier of this key goes. -/
def fallsWith (key : Nat) : ElementOf τ → Bool
  | .classifier c => c.key == key
  | .relationship r => r.source.key == key || r.target.key == key

/-- Takes out a classifier with every relationship at it; also gives those relationships. -/
def removeClassifier [Label τ] (d : DiagramOf τ) (c : ClassifierOf τ) :
    Except Refusal (DiagramOf τ × List (RelationshipOf τ)) :=
  if d.holdsClassifier c.id c.key then
    let cascaded := d.relationships.filter fun r => r.source.key == c.key || r.target.key == c.key
    .ok ({ d with
      elements := d.elements.filter fun e => !fallsWith c.key e
      index := d.index.filter fun entry => !(entry.1 == c.id) }, cascaded)
  else .error (.notPart c.describe (Label.shown d.name))

def addRelationship [Label τ] (d : DiagramOf τ) (r : RelationshipOf τ) :
    Except Refusal (DiagramOf τ) :=
  if !d.holdsClassifier r.source.id r.source.key then
    .error (.dangling (Label.shown r.name) .source r.source.qualifiedName (Label.shown d.name))
  else if !d.holdsClassifier r.target.id r.target.key then
    .error (.dangling (Label.shown r.name) .target r.target.qualifiedName (Label.shown d.name))
  else if d.holdsRelationship r.key then .error (.alreadyPart r.describe (Label.shown d.name))
  else .ok { d with elements := d.elements ++ [.relationship r] }

def removeRelationship [Label τ] (d : DiagramOf τ) (r : RelationshipOf τ) :
    Except Refusal (DiagramOf τ) :=
  if d.holdsRelationship r.key then
    .ok { d with elements := d.elements.eraseP (·.isRelationship r.key) }
  else .error (.notPart r.describe (Label.shown d.name))

/-- The diagram in messages. -/
def describe [Label τ] (d : DiagramOf τ) : String :=
  "<Diagram(name='" ++ Label.shown d.name ++ "', classifiers=" ++
    toString d.classifiers.length ++ ", relationships=" ++ toString d.relationships.length ++ ")>"

/-- Changes the contents of elements; which elements there are stays as it is. -/
def mapElements (f : ElementOf τ → ElementOf τ) (d : DiagramOf τ) : DiagramOf τ :=
  { d with elements := d.elements.map f }

def map (f : τ → σ) (d : DiagramOf τ) : DiagramOf σ :=
  { uuid := f d.uuid, name := f d.name, description := f d.description
    author := d.author.map f, version := d.version.map f, showGrid := d.showGrid
    snapToGrid := d.snapToGrid, gridSize := d.gridSize, backgroundColor := f d.backgroundColor
    elements := d.elements.map (·.map f), index := d.index.map fun (id, key) => (f id, key) }

end DiagramOf

end ClassAtlas
