import ClassAtlas.Diagram.Basic
import ClassAtlas.Java.TypeNames
import ClassAtlas.Text.UpperCase

/-! The imports of a classifier's unit. A simple name means the first known classifier of that name; a
name that no known classifier bears is assumed to live in a default namespace. A dotted name that
starts with a lower-case letter is imported as it stands, and of any other dotted name the first
segment is looked up. Targets of outgoing relationships are imported as well. -/

namespace ClassAtlas.Java

/-- What a unit's imports depend on besides its classifier. -/
structure ImportScopeOf (τ : Type) where
  /-- The classifiers that simple names can mean, first come first. -/
  known : List (EndpointOf τ)
  defaultNamespace : String

abbrev ImportScope := ImportScopeOf String

variable {τ : Type} [BEq τ] [Label τ]

/-- The import of a classifier, unless it is the unit's own or can be seen without one. -/
def importOf (c : ClassifierOf τ) (target : EndpointOf τ) : Option String :=
  if target.key == c.key || Label.isVoid target.namespaceName ||
      target.namespaceName == c.namespaceName
  then none else some target.qualifiedName

/-- Whether a simple name needs no import whatever it means. -/
def needsNoImport (c : ClassifierOf τ) (name : String) : Bool :=
  alwaysVisible.contains name || isTypeVariable name || Label.ofText name == c.name

/-- The import of a simple name. -/
def simpleImport (scope : ImportScopeOf τ) (c : ClassifierOf τ) (name : String) : Option String :=
  if needsNoImport c name then none
  else
    match scope.known.find? (·.name == Label.ofText name) with
    | some target => importOf c target
    | none =>
      if scope.defaultNamespace.isEmpty || Label.ofText scope.defaultNamespace == c.namespaceName
      then none
      else some (scope.defaultNamespace ++ "." ++ name)

theorem simpleImport_string (scope : ImportScope) (c : Classifier) (name : String) :
    simpleImport scope c name =
      if needsNoImport c name then none
      else
        match scope.known.find? (·.name == name) with
        | some target => importOf c target
        | none =>
          if scope.defaultNamespace.isEmpty || scope.defaultNamespace == c.namespaceName then none
          else some (scope.defaultNamespace ++ "." ++ name) := by
  unfold simpleImport
  cases scope.known.find? (·.name == name) <;> simp only [Label.ofText_string]

/-- The characters before the first point. -/
def firstSegment (name : String) : List Char := name.toList.takeWhile (· != '.')

def headIsUpper (name : String) : Bool := (firstSegment name).head?.any Text.isUpperCase

/-- The import of a name in a type. -/
def nameImport (scope : ImportScopeOf τ) (c : ClassifierOf τ) (name : String) : Option String :=
  if name.contains '.' then
    if headIsUpper name then simpleImport scope c (String.ofList (firstSegment name))
    else if name.startsWith "java.lang." then none
    else some name
  else simpleImport scope c name

/-- The types of a classifier's members. -/
def memberTypes (c : ClassifierOf τ) : List String :=
  (c.fields.map (·.typeName) ++
    c.operations.flatMap fun op => op.returnType.toList ++ op.parameters.map (·.typeName)).map
      Label.present

theorem memberTypes_string (c : Classifier) : memberTypes c = c.fields.map (·.typeName) ++
    c.operations.flatMap fun op => op.returnType.toList ++ op.parameters.map (·.typeName) := by
  rw [memberTypes, Label.map_present_string]

/-- Texts in code-point order, each once. -/
def sortedDistinct (texts : List String) : List String :=
  texts.eraseDups.mergeSort fun a b => decide (a ≤ b)

/-- The qualified names that a unit imports. -/
def imports (scope : ImportScopeOf τ) (c : ClassifierOf τ)
    (relationships : List (RelationshipOf τ)) : List String :=
  sortedDistinct
    ((memberTypes c).flatMap (fun t => (TypeNames.ofText t).filterMap (nameImport scope c)) ++
      (relationships.filter (·.source.key == c.key)).filterMap fun r => importOf c r.target)

/-- The classifier itself and the ends of relationships, each once. -/
def endpoints (c : ClassifierOf τ) (relationships : List (RelationshipOf τ)) :
    List (EndpointOf τ) :=
  (c.toEndpoint :: relationships.flatMap fun r => [r.source, r.target]).foldl
    (fun found e => if found.any (·.key == e.key) then found else found ++ [e]) []

end ClassAtlas.Java
