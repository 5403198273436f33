import ClassAtlas.Diagram.Basic
import ClassAtlas.Diagram.Multiplicity

/-! Structural defects of a diagram: names given twice, inheritance cycles, several superclasses,
implementation of something that is no interface, and malformed multiplicities. Each rule looks at the
whole diagram on its own, and the defects come in the order of the rules. -/

namespace ClassAtlas.Validation

inductive Defect where
  | duplicateName (classifier : String)
  | inheritanceCycle (classifier : String)
  | multipleInheritance (classifier : String) (parents : List String)
  | implementationTarget (source target : String)
  | multiplicity (side : Side) (text source target : String)
deriving Repr, DecidableEq

def Defect.message : Defect → String
  | duplicateName c => "Duplicate classifier name: " ++ c
  | inheritanceCycle c => "Inheritance cycle detected involving " ++ c
  | multipleInheritance c parents =>
    "Multiple inheritance detected for " ++ c ++ " (extends " ++ ", ".intercalate parents ++
      "); only single inheritance is supported"
  | implementationTarget source target =>
    "Invalid implementation relationship from " ++ source ++ " to " ++ target ++
      ": target must be an interface"
  | multiplicity side text source target =>
    "Invalid " ++ side.word ++ " multiplicity '" ++ text ++ "' in relationship between " ++ source ++
      " and " ++ target

/-! ## Names -/

/-- The entries whose key occurs before them. -/
def repeated {κ α : Type} [BEq κ] : List κ → List (κ × α) → List α
  | _, [] => []
  | seen, (key, entry) :: rest =>
    if seen.contains key then entry :: repeated seen rest else repeated (key :: seen) rest

section Rules

variable {τ : Type} [BEq τ]

def duplicateNames [Label τ] (d : DiagramOf τ) : List Defect :=
  repeated [] (d.classifiers.map fun c =>
    ((c.namespaceName, c.name), Defect.duplicateName c.qualifiedName))

/-! ## Inheritance -/

/-- An inheritance edge: the id it starts from and the classifier it leads to. -/
abbrev Parent (τ : Type) := τ × EndpointOf τ

def parents (d : DiagramOf τ) : List (Parent τ) :=
  (d.relationships.filter (·.kind == .inheritance)).map fun r => (r.source.id, r.target)

/-- The classifiers that the edges from an id lead to. -/
def parentsOf (edges : List (Parent τ)) (id : τ) : List (EndpointOf τ) :=
  (edges.filter fun e => e.1 == id).map (·.2)

/-- The edges that do not start from an id. -/
def apartFrom (edges : List (Parent τ)) (id : τ) : List (Parent τ) :=
  edges.filter fun e => !(e.1 == id)

theorem length_apartFrom (edges : List (Parent τ)) (id : τ) :
    (apartFrom edges id).length + (parentsOf edges id).length = edges.length := by
  unfold apartFrom parentsOf
  induction edges with
  | nil => rfl
  | cons e rest ih =>
    by_cases h : (e.1 == id) = true <;> simp_all <;> omega

/-- Whether the classifier of a key can be reached from a list of classifiers. Edges are used up as the
search passes their start, so each is followed once. -/
def reaches (goal : Nat) (edges : List (Parent τ)) : List (EndpointOf τ) → Bool
  | [] => false
  | here :: pending =>
    if here.key == goal then true
    else reaches goal (apartFrom edges here.id) (parentsOf edges here.id ++ pending)
termination_by pending => edges.length + pending.length
decreasing_by
  have := length_apartFrom edges here.id
  simp only [List.length_append, List.length_cons]
  omega

/-- Whether a classifier can reach itself. -/
def isOnCycle (edges : List (Parent τ)) (c : ClassifierOf τ) : Bool :=
  reaches c.key edges (parentsOf edges c.id)

variable [Label τ]

def inheritanceCycles (d : DiagramOf τ) : List Defect :=
  (d.classifiers.filter (isOnCycle (parents d))).map fun c => .inheritanceCycle c.qualifiedName

def multipleInheritance (d : DiagramOf τ) : List Defect :=
  d.classifiers.filterMap fun c =>
    let targets := parentsOf (parents d) c.id
    if c.kind != .interface && 1 < targets.length then
      some (.multipleInheritance c.qualifiedName (targets.map (·.qualifiedName)))
    else none

/-! ## Edges -/

def implementationTargets (d : DiagramOf τ) : List Defect :=
  (d.relationships.filter fun r => r.kind == .implementation && r.target.kind != .interface).map
    fun r => .implementationTarget r.source.qualifiedName r.target.qualifiedName

/-- The defect of one end; an end without a multiplicity, or with an empty one, has none. -/
def endDefect (r : RelationshipOf τ) (side : Side) (text? : Option τ) : List Defect :=
  match text? with
  | none => []
  | some text =>
    if Label.isVoid text || Multiplicity.isValid (Label.shown text) then []
    else [.multiplicity side (Label.shown text) r.source.qualifiedName r.target.qualifiedName]

def multiplicities (d : DiagramOf τ) : List Defect :=
  (d.relationships.filter (·.kind.isStructural)).flatMap fun r =>
    endDefect r .source r.sourceMultiplicity ++ endDefect r .target r.targetMultiplicity

/-- All defects of a diagram. -/
def defects (d : DiagramOf τ) : List Defect :=
  duplicateNames d ++ inheritanceCycles d ++ multipleInheritance d ++ implementationTargets d ++
    multiplicities d

end Rules

end ClassAtlas.Validation

namespace ClassAtlas

/-- The defects of a diagram in words; a sound diagram has none. -/
def DiagramOf.validate {τ : Type} [BEq τ] [Label τ] (d : DiagramOf τ) : List String :=
  (Validation.defects d).map (·.message)

end ClassAtlas
