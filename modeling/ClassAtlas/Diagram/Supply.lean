import ClassAtlas.Diagram.Basic

/-! Fresh identifiers and keys. Identifiers are drawn from one counter in the order in which elements
are made, and an element that was given an id draws none. Keys have a counter of their own, so two
elements never share one. -/

namespace ClassAtlas

structure Supply where
  /-- How many identifiers were drawn. -/
  drawn : Nat := 0
  /-- The next key. -/
  born : Nat := 0
deriving Repr, DecidableEq, Inhabited

/-- Work that may draw identifiers and may fail; what was drawn before a failure stays drawn. -/
abbrev Making (ε α : Type) := ExceptT ε (StateM Supply) α

namespace Supply

variable {τ : Type}

/-- The next identifier of an element. -/
def elementId (s : Supply) : String × Supply :=
  ("id-" ++ toString (s.drawn + 1), { s with drawn := s.drawn + 1 })

/-- The next identifier of a diagram. -/
def diagramId (s : Supply) : String × Supply :=
  ("uuid-" ++ toString (s.drawn + 1), { s with drawn := s.drawn + 1 })

/-- The id that was given; a void one is replaced by the next identifier. -/
def idOr [Label τ] (s : Supply) (given : τ) : τ × Supply :=
  if Label.isVoid given then (Label.ofText s.elementId.1, s.elementId.2) else (given, s)

/-- Gives a new classifier its key, and an id if it has none. -/
def enrolClassifier [Label τ] (s : Supply) (c : ClassifierOf τ) : ClassifierOf τ × Supply :=
  let (id, s) := s.idOr c.id
  ({ c with key := s.born, id := id }, { s with born := s.born + 1 })

/-- Gives a new relationship its key, and an id and a name if it has none. -/
def enrolRelationship [Label τ] (s : Supply) (r : RelationshipOf τ) : RelationshipOf τ × Supply :=
  let (id, s) := s.idOr r.id
  let name := if Label.isVoid r.name then RelationshipOf.defaultName r.source r.target else r.name
  ({ r with key := s.born, id := id, name := name }, { s with born := s.born + 1 })

end Supply

/-- A diagram without elements; without a uuid, or with a void one, it draws one. -/
def DiagramOf.empty {τ : Type} [Label τ] (name description : τ) (author version uuid : Option τ)
    (s : Supply) : DiagramOf τ × Supply :=
  let given := uuid.filter fun u => !Label.isVoid u
  let (id, s) := match given with
    | some u => (u, s)
    | none => (Label.ofText s.diagramId.1, s.diagramId.2)
  ({ uuid := id, name := name, description := description, author := author, version := version
     backgroundColor := Label.ofText "#FFFFFF" }, s)

end ClassAtlas
