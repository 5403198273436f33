import ClassAtlas.Assembly
import ClassAtlas.Document.Read
import ClassAtlas.Document.Texts

/-! Editing one diagram by hand. A session holds the diagram and a table of named elements, which need
not stand in it. An element has one identity: a change to it shows in the table, in the diagram and at
the ends of relationships alike. -/

namespace ClassAtlas.Editing

structure Session where
  diagram : DiagramOf Value
  named : List (String × ElementOf Value) := []
  supply : Supply := {}

/-- Why a step is refused. -/
inductive Problem where
  | unknownName (name : String)
  | fault (f : Document.Fault)
  | misuse (m : Document.Misuse)
  | refused (r : Refusal)
  | endMissing
  | unknownDetail (key : String)
  /-- Nothing was named where an element with such a part is needed. -/
  | lacks (sort part : String)

def Problem.message : Problem → String
  | unknownName name => Value.quotedText name
  | fault f => f.message
  | misuse m => m.message
  | refused r => r.message
  | endMissing => "Relationship source and target are required"
  | unknownDetail key =>
    "Relationship.__init__() got an unexpected keyword argument " ++ Value.quotedText key
  | lacks sort part => "'" ++ sort ++ "' object has no attribute '" ++ part ++ "'"

/-- A step of a session; what it did before a failure stays done. -/
abbrev Work (α : Type) := ExceptT Problem (StateM Session) α

/-- A session with an empty diagram. -/
def Session.start (name description : Value) (author version uuid : Option Value) : Session :=
  let (d, supply) := DiagramOf.empty name description author version uuid {}
  { diagram := d, supply }

/-! ## Named elements -/

/-- Puts an element under a name: an old name keeps its place, a new one goes to the end. -/
def putNamed (name : String) (e : ElementOf Value) :
    List (String × ElementOf Value) → List (String × ElementOf Value)
  | [] => [(name, e)]
  | (k, old) :: rest => if k == name then (k, e) :: rest else (k, old) :: putNamed name e rest

def bindName (name : String) (e : ElementOf Value) : Work Unit :=
  modify fun s => { s with named := putNamed name e s.named }

/-- The element of a name; no name means no element. -/
def find (name? : Option String) : Work (Option (ElementOf Value)) := do
  match name? with
  | none => return none
  | some name =>
    match (← get).named.lookup name with
    | some e => return some e
    | none => throw (.unknownName name)

/-- The classifier of a name, which must have such a part. -/
def findClassifier (name? : Option String) (part : String) : Work (ClassifierOf Value) := do
  match ← find name? with
  | some (.classifier c) => return c
  | some (.relationship _) => throw (.lacks "Relationship" part)
  | none => throw (.lacks "NoneType" part)

/-- How answers speak of an element: by its first name, or by its id. -/
def Session.label (s : Session) (e : ElementOf Value) : Value :=
  match s.named.find? fun entry => entry.2.isSame e with
  | some (name, _) => .str name
  | none => e.id

def Session.labels (s : Session) (es : List (ElementOf Value)) : List Value := es.map s.label

/-- Changes elements wherever they are spoken of. -/
def changeElements (f : ElementOf Value → ElementOf Value) : Work Unit :=
  modify fun s => { s with
    diagram := s.diagram.mapElements f
    named := s.named.map fun (name, e) => (name, f e) }

def useDocument {α : Type} (result : Except Document.Fault α) : Work α :=
  liftM (result.mapError Problem.fault)

def useTexts {α : Type} (result : Except Document.Misuse α) : Work α :=
  liftM (result.mapError Problem.misuse)

def useDiagram {α : Type} (result : Except Refusal α) : Work α :=
  liftM (result.mapError Problem.refused)

def setDiagram (d : DiagramOf Value) : Work Unit := modify fun s => { s with diagram := d }

/-- Draws from the supply of the session. -/
def drawing {α : Type} (draw : Supply → α × Supply) : Work α :=
  modifyGet fun s => let (a, supply) := draw s.supply; (a, { s with supply })

/-! ## Making elements -/

/-- Makes a classifier from its document form. -/
def makeClassifier (name : String) (data : Value) : Work (ClassifierOf Value) := do
  let c ← useDocument (Document.readClassifier data)
  let c ← drawing (·.enrolClassifier c)
  bindName name (.classifier c)
  return c

/-- The details that a new relationship can be given besides its ends and its kind. -/
def details : List String := [
  "name", "source_role", "target_role", "source_multiplicity", "target_multiplicity",
  "source_tooltip", "target_tooltip", "line_style", "control_points", "id"]

/-- Makes a relationship between two elements of the table. -/
def makeRelationship (name : String) (source? target? : Option String) (kind : Value)
    (data : List (String × Value)) : Work (RelationshipOf Value) := do
  let source? ← find source?
  let target? ← find target?
  let kind ← useDocument (Document.wordOf RelationshipKind.ofWord? .relationshipKind kind)
  match data.find? fun entry => !details.contains entry.1 with
  | some (key, _) => throw (.unknownDetail key)
  | none => pure ()
  let id := Document.valueOr data "id" .null
  match source?.bind (·.classifier?), target?.bind (·.classifier?) with
  | some source, some target =>
    let r ← drawing (·.enrolRelationship {
      kind, id
      key := 0
      name := Document.valueOr data "name" (.str "")
      source := source.toEndpoint
      target := target.toEndpoint
      sourceRole := Document.optional data "source_role"
      targetRole := Document.optional data "target_role"
      sourceMultiplicity := Document.optional data "source_multiplicity"
      targetMultiplicity := Document.optional data "target_multiplicity"
      sourceTooltip := Document.optional data "source_tooltip"
      targetTooltip := Document.optional data "target_tooltip" })
    bindName name (.relationship r)
    return r
  | _, _ =>
    discard (drawing (·.idOr id))
    throw .endMissing

/-- Makes a classifier for each type of a text and enters it. -/
def enterTypes (source namespaceHint : String) : Work (List (ClassifierOf Value)) :=
  (Java.extract source namespaceHint).mapM fun record => do
    let c ← drawing (·.enrolClassifier ((Assembly.classifierOf record).map .str))
    setDiagram (← useDiagram ((← get).diagram.addClassifier c))
    return c

/-! ## The diagram -/

/-- Ids serve as keys, so they cannot be lists or objects. -/
def needKey (id : Value) : Work Unit := discard (useDocument (Document.asKey id))

/-- Enters a named element. -/
def add (name? : Option String) : Work Unit := do
  match ← find name? with
  | some (.classifier c) =>
    needKey c.id
    setDiagram (← useDiagram ((← get).diagram.addClassifier c))
  | some (.relationship r) =>
    needKey r.source.id
    needKey r.target.id
    setDiagram (← useDiagram ((← get).diagram.addRelationship r))
  | none => throw (.lacks "NoneType" "source")

/-- Takes out a named element; also gives the relationships that went with a classifier. -/
def remove (name? : Option String) : Work (Option (List (RelationshipOf Value))) := do
  let d := (← get).diagram
  match ← find name? with
  | some (.classifier c) =>
    needKey c.id
    let (d, cascaded) ← useDiagram (d.removeClassifier c)
    setDiagram d
    return some cascaded
  | some (.relationship r) =>
    setDiagram (← useDiagram (d.removeRelationship r))
    return none
  | none => throw (.refused (.notPart "None" d.name.shown))

/-- Whether a named element stands in the diagram, a classifier under its own id. -/
def contains (name? : Option String) : Work Bool := do
  let d := (← get).diagram
  match ← find name? with
  | some (.classifier c) =>
    needKey c.id
    return d.holdsClassifier c.id c.key
  | some (.relationship r) => return d.holdsRelationship r.key
  | none => return false

/-- The classifier that was entered under an id. -/
def byId (id : Value) : Work (Option (ClassifierOf Value)) := do
  needKey id
  return (← get).diagram.classifierById? id

/-- The relationships that start at a named element, of one kind if one is given. -/
def outgoing (name? : Option String) (kind? : Option Value) : Work (List (RelationshipOf Value)) := do
  let found ← find name?
  let kind? ← kind?.mapM fun kind =>
    useDocument (Document.wordOf RelationshipKind.ofWord? .relationshipKind kind)
  match found with
  | some (.classifier c) => return (← get).diagram.outgoing c.key kind?
  | _ => return []

/-! ## Contents of elements -/

def addField (name? : Option String) (data : Value) : Work (FieldOf Value) := do
  let c ← findClassifier name? "add_field"
  let f ← useDocument (Document.readField data)
  changeElements (ElementOf.withClassifier { c with fields := c.fields ++ [f] })
  return f

def addOperation (name? : Option String) (data : Value) : Work (OperationOf Value) := do
  let c ← findClassifier name? "add_operation"
  let op ← useDocument (Document.readOperation data)
  changeElements (ElementOf.withClassifier { c with operations := c.operations ++ [op] })
  return op

/-- A number as it was given, or the old one if it is none. -/
def numberOr (old : Float) (v : Value) : Float := (Document.realOf v).toOption.getD old

/-- Sets one attribute of a classifier. -/
def setClassifier (c : ClassifierOf Value) (key : String) (v : Value) :
    Except Document.Fault (ClassifierOf Value) :=
  match key with
  | "id" => .ok { c with id := v }
  | "name" => .ok { c with name := v }
  | "namespace" => .ok { c with namespaceName := v }
  | "kind" => do
    return { c with kind := ← Document.wordOf ClassifierKind.ofWord? .classifierKind v }
  | "is_abstract" => .ok { c with isAbstract := v.isTruthy }
  | "literals" => do return { c with literals := ← Document.partsOf v }
  | "declared_superclass" => .ok { c with declaredSuperclass := Document.optional [(key, v)] key }
  | "declared_interfaces" => do return { c with declaredInterfaces := ← Document.partsOf v }
  | "x" => .ok { c with box := { c.box with x := numberOr c.box.x v } }
  | "y" => .ok { c with box := { c.box with y := numberOr c.box.y v } }
  | "width" => .ok { c with box := { c.box with width := numberOr c.box.width v } }
  | "height" => .ok { c with box := { c.box with height := numberOr c.box.height v } }
  | _ => .ok c

/-- Sets one attribute of a relationship. -/
def setRelationship (r : RelationshipOf Value) (key : String) (v : Value) : RelationshipOf Value :=
  let given := Document.optional [(key, v)] key
  match key with
  | "id" => { r with id := v }
  | "name" => { r with name := v }
  | "source_role" => { r with sourceRole := given }
  | "target_role" => { r with targetRole := given }
  | "source_multiplicity" => { r with sourceMultiplicity := given }
  | "target_multiplicity" => { r with targetMultiplicity := given }
  | "source_tooltip" => { r with sourceTooltip := given }
  | "target_tooltip" => { r with targetTooltip := given }
  | _ => r

/-- Sets one attribute of the diagram itself. -/
def setHeader (d : DiagramOf Value) (key : String) (v : Value) : DiagramOf Value :=
  let given := Document.optional [(key, v)] key
  match key with
  | "name" => { d with name := v }
  | "description" => { d with description := v }
  | "author" => { d with author := given }
  | "version" => { d with version := given }
  | "uuid" => { d with uuid := v }
  | "show_grid" => { d with showGrid := v.isTruthy }
  | "snap_to_grid" => { d with snapToGrid := v.isTruthy }
  | "grid_size" => { d with gridSize := numberOr d.gridSize v }
  | "background_color" => { d with backgroundColor := v }
  | _ => d

/-- Sets attributes of a named element one by one; also gives its new description. -/
def change (name? : Option String) (data : List (String × Value)) : Work String := do
  match ← find name? with
  | some (.classifier c) =>
    let c ← data.foldlM (fun c (key, v) => do
      let c ← useDocument (setClassifier c key v)
      changeElements (ElementOf.withClassifier c)
      return c) c
    return c.describe
  | some (.relationship r) =>
    let r := data.foldl (fun r (key, v) => setRelationship r key v) r
    changeElements (ElementOf.withRelationship r)
    return r.describe
  | none => throw (.lacks "NoneType" ((data.head?.map (·.1)).getD ""))

/-- Sets attributes of the diagram itself. -/
def changeHeader (data : List (String × Value)) : Work String := do
  let d := data.foldl (fun d (key, v) => setHeader d key v) (← get).diagram
  setDiagram d
  return d.describe

/-- Gives every classifier its place. -/
def arrange (options : Grid.Options Float) : Work Unit := do
  let d := (← get).diagram.arrange options
  changeElements fun e => d.classifiers.foldl (fun e c => e.withClassifier c) e

/-! ## Inference and units -/

/-- Examines the diagram; drawn ids stay drawn. -/
def infer (searchOrder : List String) (withSupertypes : Bool) : Work Inference.Report := do
  let s ← get
  let (report, supply) ← useTexts (Document.analyze s.diagram searchOrder withSupertypes s.supply)
  modify fun s => { s with supply }
  return report

/-- Examines the diagram and enters the edges it does not have yet; gives their number. -/
def merge (searchOrder : List String) (withSupertypes : Bool) : Work Nat := do
  let report ← infer searchOrder withSupertypes
  let d := (← get).diagram
  let merged := Inference.merge d (report.relationships.map (Document.relationshipValues d))
  setDiagram merged.diagram
  match merged.refusal with
  | some r => throw (.refused r)
  | none => return merged.added

/-- What names in a unit can mean. -/
inductive Known where
  | nothing
  | wholeDiagram
  /-- The classifier itself and the ends of relationships. -/
  | ends
deriving Repr, DecidableEq

def Known.classifiers? (d : DiagramOf Value) : Known → Option (List (ClassifierOf Value))
  | nothing => some []
  | wholeDiagram => some d.classifiers
  | ends => none

def imports (name? : Option String) (known : Known) (namespaceName : String) :
    Work (List String) := do
  let c ← findClassifier name? "fields"
  let d := (← get).diagram
  useTexts (Document.imports namespaceName d c (known.classifiers? d))

def unitText (name? : Option String) (known : Known) (style : Java.UnitStyle) : Work String := do
  let c ← findClassifier name? "namespace"
  let d := (← get).diagram
  useTexts (Document.unitOf style d c (known.classifiers? d))

end ClassAtlas.Editing
