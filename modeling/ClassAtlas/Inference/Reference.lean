import ClassAtlas.Inference.Resolution
import ClassAtlas.Java.TypeNames

/-! The references that inference examines: declared supertypes, names in field types, and names in
return and parameter types. The edge that a reference calls for depends on its use alone. -/

namespace ClassAtlas.Inference

/-- How a declared supertype is introduced. -/
inductive Relation where
  | extends
  | implements
deriving Repr, DecidableEq

def Relation.word : Relation → String
  | .extends => "extends"
  | .implements => "implements"

inductive Use where
  | supertype (relation : Relation) (kind : RelationshipKind)
  | field (isFinal : Bool)
  | signature
deriving Repr, DecidableEq

def Use.kind : Use → RelationshipKind
  | supertype _ kind => kind
  | field true => .composition
  | field false => .association
  | signature => .dependency

structure Reference where
  owner : Classifier
  text : String
  use : Use

/-- The declared supertypes. Whatever an interface lists it inherits from. -/
def supertypes (c : Classifier) : List Reference :=
  let superclass := (c.declaredSuperclass.toList.filter fun s => !s.isEmpty).map fun s =>
    ⟨c, s, .supertype .extends .inheritance⟩
  let use : Use :=
    if c.kind == .interface then .supertype .extends .inheritance
    else .supertype .implements .implementation
  superclass ++ c.declaredInterfaces.map fun s => ⟨c, s, use⟩

def fieldReferences (c : Classifier) : List Reference :=
  c.fields.flatMap fun f => (Java.TypeNames.ofText f.typeName).map fun name =>
    ⟨c, name, .field f.isFinal⟩

/-- The types of a signature, the return type first. -/
def signatureTypes (op : Operation) : List String :=
  op.returnType.toList ++ op.parameters.map (·.typeName)

def signatureReferences (c : Classifier) : List Reference :=
  c.operations.flatMap fun op => (signatureTypes op).flatMap fun t =>
    (Java.TypeNames.ofText t).map fun name => ⟨c, name, .signature⟩

/-- All references of some classifiers: supertypes of all, if wanted, then fields of all, then
signatures of all. -/
def references (classifiers : List Classifier) (withSupertypes : Bool) : List Reference :=
  (if withSupertypes then classifiers.flatMap supertypes else []) ++
    classifiers.flatMap fieldReferences ++ classifiers.flatMap signatureReferences

end ClassAtlas.Inference
