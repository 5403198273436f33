import ClassAtlas.Diagram.Supply
import ClassAtlas.Inference.Reference

/-! Inference: the edges that references call for, each once and none from a classifier to itself, with
notes on ambiguous names and on supertypes outside the diagram. Merging enters the edges that a diagram
does not have yet. -/

namespace ClassAtlas.Inference

/-- A simple name that several classifiers bear. -/
structure Ambiguity where
  owner : String
  reference : String
  candidates : List String
  chosen : String
deriving Repr, DecidableEq

/-- A declared supertype that is no classifier of the diagram. -/
structure Unresolved where
  owner : String
  supertype : String
  relation : Relation
deriving Repr, DecidableEq

structure Report where
  relationships : List Relationship
  ambiguities : List Ambiguity
  unresolved : List Unresolved

/-- An edge before it becomes a relationship. -/
structure Edge where
  source : Classifier
  target : Classifier
  kind : RelationshipKind

/-- The items of a list whose key does not occur before them. -/
def firstBy {α κ : Type} [BEq κ] (key : α → κ) : List κ → List α → List α
  | _, [] => []
  | seen, x :: rest =>
    if seen.contains (key x) then firstBy key seen rest
    else x :: firstBy key (key x :: seen) rest

/-- What tells one edge from another. -/
def Edge.identity (e : Edge) : String × String × RelationshipKind := (e.source.id, e.target.id, e.kind)

/-- The edge that a reference calls for. -/
def Reference.edge? (s : Scope) (r : Reference) : Option Edge :=
  (s.resolve r.owner r.text).bind fun target =>
    if r.owner.key == target.key then none else some ⟨r.owner, target, r.use.kind⟩

def edges (s : Scope) (refs : List Reference) : List Edge :=
  firstBy Edge.identity [] (refs.filterMap (·.edge? s))

/-- The ambiguity that a reference runs into, under the owner's id and the name. -/
def Reference.ambiguity? (s : Scope) (r : Reference) : Option ((String × String) × Ambiguity) :=
  match s.find r.owner r.text with
  | .several name candidates chosen =>
    some ((r.owner.id, name),
      { owner := r.owner.qualifiedName
        reference := name
        candidates := candidates.map (·.qualifiedName)
        chosen := chosen.qualifiedName })
  | _ => none

def ambiguities (s : Scope) (refs : List Reference) : List Ambiguity :=
  (firstBy (·.1) [] (refs.filterMap (·.ambiguity? s))).map (·.2)

/-- The note on a declared supertype that means nothing here. -/
def Reference.unresolved? (s : Scope) (r : Reference) : Option Unresolved :=
  match r.use, s.resolve r.owner r.text with
  | .supertype relation _, none => some ⟨r.owner.qualifiedName, r.text, relation⟩
  | _, _ => none

/-- Turns an edge into a relationship with an id and a key of its own. -/
def Edge.enrol (e : Edge) (supply : Supply) : Relationship × Supply :=
  supply.enrolRelationship
    { key := 0, id := "", name := "", source := e.source.toEndpoint
      target := e.target.toEndpoint, kind := e.kind }

def enrolAll (supply : Supply) : List Edge → List Relationship × Supply
  | [] => ([], supply)
  | e :: rest =>
    let (r, supply) := e.enrol supply
    let (others, supply) := enrolAll supply rest
    (r :: others, supply)

/-- Examines all references of a diagram; the diagram stays as it is. -/
def analyze (d : Diagram) (searchOrder : List String) (withSupertypes : Bool) (supply : Supply) :
    Report × Supply :=
  let scope : Scope := ⟨d.classifiers, searchOrder⟩
  let refs := references d.classifiers withSupertypes
  let (relationships, supply) := enrolAll supply (edges scope refs)
  ({ relationships
     ambiguities := ambiguities scope refs
     unresolved := refs.filterMap (·.unresolved? scope) }, supply)

/-! ## Merging -/

def identity {τ : Type} (r : RelationshipOf τ) : τ × τ × RelationshipKind :=
  (r.source.id, r.target.id, r.kind)

/-- What merging came to: the diagram, the number of edges it got, and why it stopped early, if so. -/
structure Merged (τ : Type) where
  diagram : DiagramOf τ
  added : Nat
  refusal : Option Refusal := none

def mergeFrom {τ : Type} [Label τ] (existing : List (τ × τ × RelationshipKind)) (added : Nat)
    (d : DiagramOf τ) : List (RelationshipOf τ) → Merged τ
  | [] => ⟨d, added, none⟩
  | r :: rest =>
    if existing.contains (identity r) then mergeFrom existing added d rest
    else
      match d.addRelationship r with
      | .error e => ⟨d, added, some e⟩
      | .ok d => mergeFrom (identity r :: existing) (added + 1) d rest

/-- Enters the relationships whose source, target and kind the diagram does not have yet. -/
def merge {τ : Type} [Label τ] (d : DiagramOf τ) (relationships : List (RelationshipOf τ)) :
    Merged τ :=
  mergeFrom (d.relationships.map identity) 0 d relationships

end ClassAtlas.Inference
