import ClassAtlas.Diagram.Member

/-! The elements of a class diagram: classifiers and the relationships between them. Every element
carries a `key`, which tells it from all others of its sort for as long as it lives; its `id` is a
name that a document may give to several elements. -/

namespace ClassAtlas

/-- The place and size of a classifier. -/
structure Box (α : Type) where
  x : α
  y : α
  width : α
  height : α
deriving Repr, DecidableEq

def Box.standard : Box Float := ⟨0.0, 0.0, 200.0, 150.0⟩

/-- Colours and border of a classifier, kept as they were given. -/
structure Style where
  fillColor : Value := .str "#FFFFFF"
  borderColor : Value := .str "#000000"
  borderWidth : Value := .float 1.0

structure LineStyle where
  color : Value := .str "#000000"
  width : Float := 1.0
  dash : DashPattern := .solid

/-- A bend of a line, kept as it was given. -/
structure ControlPoint where
  x : Value
  y : Value

/-- A class, interface or enumeration. The declared supertypes are names from the source; they become
relationships only through inference. -/
structure ClassifierOf (τ : Type) where
  key : Nat
  id : τ
  name : τ
  namespaceName : τ
  kind : ClassifierKind
  isAbstract : Bool
  fields : List (FieldOf τ)
  operations : List (OperationOf τ)
  literals : List τ
  declaredSuperclass : Option τ
  declaredInterfaces : List τ
  box : Box Float
  style : Style

/-- What a relationship knows of a classifier at one of its ends. -/
structure EndpointOf (τ : Type) where
  key : Nat
  id : τ
  name : τ
  namespaceName : τ
  kind : ClassifierKind
deriving Repr, DecidableEq

/-- A relationship between two classifiers. -/
structure RelationshipOf (τ : Type) where
  key : Nat
  id : τ
  name : τ
  source : EndpointOf τ
  target : EndpointOf τ
  kind : RelationshipKind
  sourceRole : Option τ := none
  targetRole : Option τ := none
  sourceMultiplicity : Option τ := none
  targetMultiplicity : Option τ := none
  sourceTooltip : Option τ := none
  targetTooltip : Option τ := none
  lineStyle : LineStyle := {}
  controlPoints : List ControlPoint := []

inductive ElementOf (τ : Type) where
  | classifier (c : ClassifierOf τ)
  | relationship (r : RelationshipOf τ)

abbrev Classifier := ClassifierOf String
abbrev Endpoint := EndpointOf String
abbrev Relationship := RelationshipOf String
abbrev Element := ElementOf String

variable {τ σ : Type}

/-- A name within its namespace; without a namespace it stands alone. -/
def qualify [Label τ] (namespaceName name : τ) : String :=
  if Label.isVoid namespaceName then Label.shown name
  else Label.shown namespaceName ++ "." ++ Label.shown name

namespace ClassifierOf

def qualifiedName [Label τ] (c : ClassifierOf τ) : String := qualify c.namespaceName c.name

/-- The classifier in messages. -/
def describe [Label τ] (c : ClassifierOf τ) : String :=
  "<Classifier(" ++ c.kind.word ++ " " ++ c.qualifiedName ++ ")>"

def toEndpoint (c : ClassifierOf τ) : EndpointOf τ :=
  ⟨c.key, c.id, c.name, c.namespaceName, c.kind⟩

def map (f : τ → σ) (c : ClassifierOf τ) : ClassifierOf σ :=
  { key := c.key, id := f c.id, name := f c.name, namespaceName := f c.namespaceName
    kind := c.kind, isAbstract := c.isAbstract
    fields := c.fields.map (·.map f), operations := c.operations.map (·.map f)
    literals := c.literals.map f, declaredSuperclass := c.declaredSuperclass.map f
    declaredInterfaces := c.declaredInterfaces.map f, box := c.box, style := c.style }

end ClassifierOf

namespace EndpointOf

def qualifiedName [Label τ] (e : EndpointOf τ) : String := qualify e.namespaceName e.name

def map (f : τ → σ) (e : EndpointOf τ) : EndpointOf σ :=
  ⟨e.key, f e.id, f e.name, f e.namespaceName, e.kind⟩

end EndpointOf

namespace RelationshipOf

/-- The name of a relationship that was given none. -/
def defaultName [Label τ] (source target : EndpointOf τ) : τ :=
  Label.ofText (Label.shown source.name ++ "->" ++ Label.shown target.name)

/-- The relationship in messages. -/
def describe [Label τ] (r : RelationshipOf τ) : String :=
  "<Relationship(" ++ r.kind.word ++ " " ++ Label.shown r.source.name ++ " -> " ++
    Label.shown r.target.name ++ ")>"

def map (f : τ → σ) (r : RelationshipOf τ) : RelationshipOf σ :=
  { key := r.key, id := f r.id, name := f r.name, source := r.source.map f
    target := r.target.map f, kind := r.kind, sourceRole := r.sourceRole.map f
    targetRole := r.targetRole.map f, sourceMultiplicity := r.sourceMultiplicity.map f
    targetMultiplicity := r.targetMultiplicity.map f, sourceTooltip := r.sourceTooltip.map f
    targetTooltip := r.targetTooltip.map f, lineStyle := r.lineStyle
    controlPoints := r.controlPoints }

end RelationshipOf

namespace ElementOf

def id : ElementOf τ → τ
  | classifier c => c.id
  | relationship r => r.id

def classifier? : ElementOf τ → Option (ClassifierOf τ)
  | classifier c => some c
  | relationship _ => none

def relationship? : ElementOf τ → Option (RelationshipOf τ)
  | relationship r => some r
  | classifier _ => none

/-- Whether the element is the relationship of this key. -/
def isRelationship (key : Nat) : ElementOf τ → Bool
  | relationship r => r.key == key
  | classifier _ => false

/-- Whether the element is the classifier of this key. -/
def isClassifier (key : Nat) : ElementOf τ → Bool
  | classifier c => c.key == key
  | relationship _ => false

/-- Whether both are one and the same element, whatever their contents. -/
def isSame : ElementOf τ → ElementOf τ → Bool
  | classifier c => isClassifier c.key
  | relationship r => isRelationship r.key

/-- The element after a classifier was changed: the classifier itself, or what a relationship knows of
it at its ends. -/
def withClassifier (c : ClassifierOf τ) : ElementOf τ → ElementOf τ
  | classifier old => classifier (if old.key == c.key then c else old)
  | relationship r =>
    let atEnd (e : EndpointOf τ) := if e.key == c.key then c.toEndpoint else e
    relationship { r with source := atEnd r.source, target := atEnd r.target }

/-- The element after a relationship was changed. -/
def withRelationship (r : RelationshipOf τ) : ElementOf τ → ElementOf τ
  | relationship old => relationship (if old.key == r.key then r else old)
  | other => other

def describe [Label τ] : ElementOf τ → String
  | classifier c => c.describe
  | relationship r => r.describe

def map (f : τ → σ) : ElementOf τ → ElementOf σ
  | classifier c => classifier (c.map f)
  | relationship r => relationship (r.map f)

end ElementOf

end ClassAtlas
