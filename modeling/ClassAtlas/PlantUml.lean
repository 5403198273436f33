import ClassAtlas.Diagram.Basic

/-! A diagram as PlantUML text. Classifiers stand in one package for each namespace, packages in the
order of their names; relationships follow in diagram order and refer to classifiers by aliases, which
end in the classifier's place in the diagram and so are never the same. Every text is stripped of
quotes and line breaks before it is written. -/

namespace ClassAtlas.PlantUml

/-- The fixed look of all diagrams. -/
def look : List String := [
  "skinparam backgroundColor #FEFEFE",
  "skinparam shadowing false",
  "skinparam defaultFontSize 12",
  "skinparam roundCorner 8",
  "skinparam classAttributeIconSize 0",
  "",
  "skinparam class \x7b",
  "  BackgroundColor #F8F9FA",
  "  BorderColor #495057",
  "  ArrowColor #6C757D",
  "  FontColor #212529",
  "  AttributeFontColor #495057",
  "  StereotypeFontColor #6C757D",
  "\x7d",
  "",
  "skinparam package \x7b",
  "  BackgroundColor #F1F3F5",
  "  BorderColor #ADB5BD",
  "  FontColor #343A40",
  "  FontStyle bold",
  "\x7d"]

def arrow : RelationshipKind → String
  | .inheritance => "--|>"
  | .implementation => "..|>"
  | .association => "-->"
  | .aggregation => "o--"
  | .composition => "*--"
  | .dependency => "..>"

/-- A text on one line and without quotes: its words with one space between them. -/
def oneLine (s : String) : String :=
  String.ofList (Text.joinedWords (s.toList.map fun c => if c == '"' then ' ' else c))

/-- The alias of a classifier: up to thirty characters of its name, ASCII letters and digits as they are,
and its place. -/
def shortName (name : String) (place : Nat) : String :=
  String.ofList ((name.toList.map fun c => if c.isAlphanum then c else '_').take 30) ++ "_" ++
    toString place

def keyword (c : Classifier) : String :=
  match c.kind with
  | .interface => "interface"
  | .enumeration => "enum"
  | .«class» => if c.isAbstract then "abstract class" else "class"

def fieldLine (f : Field) : String :=
  "  " ++ (if f.isStatic then "\x7bstatic\x7d " else "") ++ f.visibility.sign ++ oneLine f.name ++
    " : " ++ oneLine f.typeName

def parameterText (p : Parameter) : String := oneLine p.name ++ ": " ++ oneLine p.typeName

def operationLine (op : Operation) : String :=
  let modifier :=
    if op.isAbstract then "\x7babstract\x7d " else if op.isStatic then "\x7bstatic\x7d " else ""
  let result :=
    match op.returnType with
    | some t => if t.isEmpty then "" else " : " ++ oneLine t
    | none => ""
  "  " ++ modifier ++ op.visibility.sign ++ oneLine op.name ++ "(" ++
    ", ".intercalate (op.parameters.map parameterText) ++ ")" ++ result

/-- A line between two groups of members, unless one of them is empty. -/
def divider (before after : Bool) : List String := if before && after then ["  --"] else []

def classifierLines (c : Classifier) (aliasName : String) : List String :=
  [keyword c ++ " \"" ++ oneLine c.name ++ "\" as " ++ aliasName ++ " \x7b"] ++
    c.literals.map (fun literal => "  " ++ oneLine literal) ++
    divider (!c.literals.isEmpty) (!c.fields.isEmpty || !c.operations.isEmpty) ++
    c.fields.map fieldLine ++
    divider (!c.fields.isEmpty) (!c.operations.isEmpty) ++
    c.operations.map operationLine ++
    ["\x7d"]

/-- A multiplicity in quotes, if there is one. -/
def multiplicity (before after : String) (text? : Option String) : String :=
  match text? with
  | some text => if text.isEmpty then "" else before ++ "\"" ++ oneLine text ++ "\"" ++ after
  | none => ""

def relationshipLine (aliasOf : String → String) (r : Relationship) : String :=
  let label :=
    match r.targetRole with
    | some role => if role.isEmpty then "" else " : " ++ oneLine role
    | none => ""
  aliasOf r.source.id ++ multiplicity " " "" r.sourceMultiplicity ++ " " ++ arrow r.kind ++ " " ++
    multiplicity "" " " r.targetMultiplicity ++ aliasOf r.target.id ++ label

/-- The classifiers with their aliases, in diagram order. -/
def aliased (d : Diagram) : List (Classifier × String) :=
  d.classifiers.zipIdx.map fun (c, place) => (c, shortName c.name place)

/-- The alias of the classifier with an id. -/
def aliasOf (d : Diagram) (id : String) : String :=
  (((aliased d).find? fun (c, _) => c.id == id).map (·.2)).getD ""

/-- The namespaces of a diagram, each once, in order of their characters. -/
def namespaces (d : Diagram) : List String :=
  ((d.classifiers.map (·.namespaceName)).eraseDups).mergeSort fun a b => decide (a ≤ b)

def packageLines (d : Diagram) (namespaceName : String) : List String :=
  let members := (aliased d).filter fun (c, _) => c.namespaceName == namespaceName
  let body := members.flatMap fun (c, aliasName) => classifierLines c aliasName ++ [""]
  if namespaceName.isEmpty then body
  else ["package " ++ oneLine namespaceName ++ " \x7b"] ++ body ++ ["\x7d", ""]

def lines (d : Diagram) : List String :=
  ["@startuml"] ++ look ++ [""] ++
    (if d.name.isEmpty then [] else ["title " ++ oneLine d.name, ""]) ++
    (namespaces d).flatMap (packageLines d) ++
    d.relationships.map (relationshipLine (aliasOf d)) ++
    ["", "@enduml"]

/-- The PlantUML text of a diagram. -/
def render (d : Diagram) : String := "\n".intercalate (lines d) ++ "\n"

end ClassAtlas.PlantUml
