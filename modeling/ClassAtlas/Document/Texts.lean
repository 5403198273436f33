import ClassAtlas.Inference.Report
import ClassAtlas.Java.Unit
import ClassAtlas.PlantUml
import ClassAtlas.Validation

/-! Using a diagram whose document may hold other values in place of texts. Each use reads certain
slots in a certain order and fails at the first value that does not serve. Defects and units are then
found among the values as they stand; pictures and edges are made of the texts that the values show. -/

namespace ClassAtlas.Document

/-- Why a value cannot be used as a text. -/
inductive Misuse where
  | notText (sort : String)
  | unhashable (sort : String)
  | notSplit (sort : String)
  | notJoined (place : Nat) (sort : String)
  | notExtended (sort : String)
deriving Repr, DecidableEq

def Misuse.message : Misuse → String
  | notText sort => "expected string or bytes-like object, got '" ++ sort ++ "'"
  | unhashable sort => "unhashable type: '" ++ sort ++ "'"
  | notSplit sort => "'" ++ sort ++ "' object has no attribute 'split'"
  | notJoined place sort =>
    "sequence item " ++ toString place ++ ": expected str instance, " ++ sort ++ " found"
  | notExtended sort =>
    if sort == "list" then "can only concatenate list (not \"str\") to list"
    else "unsupported operand type(s) for +: '" ++ sort ++ "' and 'str'"

/-! ## Values that serve -/

def needText (v : Value) : Except Misuse Unit :=
  match v with
  | .str _ => .ok ()
  | _ => .error (.notText v.sortName)

/-- A void value is never looked into. -/
def needTextIfPresent (v : Value) : Except Misuse Unit :=
  if v.isTruthy then needText v else .ok ()

def needTextIn (v? : Option Value) : Except Misuse Unit := v?.elim (.ok ()) needTextIfPresent

def needHashable (v : Value) : Except Misuse Unit :=
  match v with
  | .list _ | .object _ => .error (.unhashable v.sortName)
  | _ => .ok ()

def needSplit (v : Value) : Except Misuse Unit :=
  match v with
  | .str _ => .ok ()
  | _ => .error (.notSplit v.sortName)

/-- All values to be joined must be texts. -/
def needJoined (vs : List Value) : Except Misuse Unit :=
  vs.zipIdx.forM fun (v, place) =>
    match v with
    | .str _ => .ok ()
    | _ => .error (.notJoined place v.sortName)

/-- Void words are left out of a phrase before it is joined. -/
def needPhrase (words : List String) (vs : List Value) : Except Misuse Unit :=
  needJoined ((words.map Value.str ++ vs).filter (·.isTruthy))

/-! ## Defects -/

/-- The qualified name of a classifier: a text behind a namespace, and else the name as it stands. -/
def qualifiedValue (e : EndpointOf Value) : Value :=
  if Label.isVoid e.namespaceName then e.name else .str e.qualifiedName

/-- The parents that are listed as too many. -/
def listedParents (d : DiagramOf Value) (c : ClassifierOf Value) : List (EndpointOf Value) :=
  let parents := Validation.parentsOf (Validation.parents d) c.id
  if c.kind != .interface && 1 < parents.length then parents else []

/-- The defects of a diagram. -/
def validate (d : DiagramOf Value) : Except Misuse (List String) := do
  d.classifiers.forM fun c => do
    needHashable c.namespaceName
    needHashable c.name
  d.classifiers.forM fun c => needJoined ((listedParents d c).map qualifiedValue)
  (d.relationships.filter (·.kind.isStructural)).forM fun r => do
    needTextIn r.sourceMultiplicity
    needTextIn r.targetMultiplicity
  return d.validate

/-! ## Units -/

/-- What the path of a unit reads. -/
def checkPath (c : ClassifierOf Value) : Except Misuse Unit := do
  if c.namespaceName.isTruthy then needSplit c.namespaceName
  match c.name with
  | .str _ => pure ()
  | v => throw (.notExtended v.sortName)

/-- What the imports of a unit read, with the classifiers that names can mean. -/
def checkImports (c : ClassifierOf Value) (known : List (EndpointOf Value)) : Except Misuse Unit := do
  known.forM fun other => needHashable other.name
  c.fields.forM fun f => needTextIfPresent f.typeName
  c.operations.forM fun op => do
    needTextIn op.returnType
    op.parameters.forM fun p => needTextIfPresent p.typeName

/-- Whether the unit of a classifier lists the target of a relationship among its supertypes. -/
def lists (c : ClassifierOf Value) (r : RelationshipOf Value) : Bool :=
  r.source.key == c.key &&
    (r.kind == .implementation || (r.kind == .inheritance && c.kind == .interface))

/-- The name in the header of a class is a word of a phrase. -/
def needClassName (c : ClassifierOf Value) : Except Misuse Unit :=
  if c.kind == .«class» then
    needPhrase ["public", Java.wordIf c.isAbstract "abstract", "class"] [c.name]
  else .ok ()

/-- What the text of a unit reads of its own classifier and of the targets of its relationships. -/
def checkText (c : ClassifierOf Value) (relationships : List (RelationshipOf Value))
    (known : List (EndpointOf Value)) : Except Misuse Unit := do
  checkImports c known
  needClassName c
  needJoined ((relationships.filter (lists c)).map (·.target.name))
  c.fields.forM fun f => needPhrase
    [f.visibility.keyword, Java.wordIf f.isStatic "static", Java.wordIf f.isFinal "final"]
    [f.typeName, f.name]
  if c.kind == .enumeration then needJoined c.literals

/-- All units of a diagram under their paths. -/
def units (style : Java.UnitStyle) (d : DiagramOf Value) :
    Except Misuse (List (String × String)) := do
  d.classifiers.forM fun c => do
    checkPath c
    checkText c d.relationships (d.classifiers.map (·.toEndpoint))
  return Java.units style d

/-- The classifiers that names in a unit can mean: if none are given, the classifier itself and the ends
of the relationships. -/
def knownEnds (d : DiagramOf Value) (c : ClassifierOf Value) :
    Option (List (ClassifierOf Value)) → List (EndpointOf Value)
  | some others => others.map (·.toEndpoint)
  | none => Java.endpoints c d.relationships

/-- The imports of a classifier's unit, as it stands among the relationships of a diagram. -/
def imports (namespaceName : String) (d : DiagramOf Value) (c : ClassifierOf Value)
    (known? : Option (List (ClassifierOf Value))) : Except Misuse (List String) := do
  let known := knownEnds d c known?
  checkImports c known
  return Java.imports ⟨known, namespaceName⟩ c d.relationships

/-- The text of a classifier's unit, as it stands among the relationships of a diagram. -/
def unitOf (style : Java.UnitStyle) (d : DiagramOf Value) (c : ClassifierOf Value)
    (known? : Option (List (ClassifierOf Value))) : Except Misuse String := do
  let known := knownEnds d c known?
  checkText c d.relationships known
  return Java.generate style c d.relationships (some known)

/-- How many classifiers have values that serve, up to the first that has not, and what is wrong with
that one. -/
def usableUnits (d : DiagramOf Value) : List (ClassifierOf Value) → Nat × Option Misuse
  | [] => (0, none)
  | c :: rest =>
    match (do checkText c d.relationships (d.classifiers.map (·.toEndpoint)); checkPath c :
      Except Misuse Unit) with
    | .error m => (0, some m)
    | .ok _ => let (n, misuse) := usableUnits d rest; (n + 1, misuse)

/-- The units of a diagram with their paths below a root, up to the first classifier with a value that
does not serve, and what is wrong with that one. -/
def placedUnits (style : Java.UnitStyle) (root : String) (d : DiagramOf Value) :
    List (String × String) × Option Misuse :=
  let (n, misuse) := usableUnits d d.classifiers
  ((Java.placedUnits style root d).take n, misuse)

/-! ## Texts shown by values -/

/-- A void value in an optional slot is no text. -/
def optionalText (v? : Option Value) : Option String := (v?.filter (·.isTruthy)).map (·.shown)

def parameterTexts (p : ParameterOf Value) : Parameter :=
  ⟨p.name.shown, p.typeName.shown, optionalText p.defaultValue⟩

def fieldTexts (f : FieldOf Value) : Field :=
  { name := f.name.shown, typeName := Label.present f.typeName
    defaultValue := optionalText f.defaultValue
    visibility := f.visibility, isStatic := f.isStatic, isFinal := f.isFinal }

def operationTexts (op : OperationOf Value) : Operation :=
  { name := op.name.shown, returnType := optionalText op.returnType, visibility := op.visibility
    isStatic := op.isStatic, isAbstract := op.isAbstract, isFinal := op.isFinal
    parameters := op.parameters.map parameterTexts }

def classifierTexts (c : ClassifierOf Value) : Classifier :=
  { key := c.key, id := c.id.shown, name := c.name.shown
    namespaceName := Label.present c.namespaceName
    kind := c.kind, isAbstract := c.isAbstract
    fields := c.fields.map fieldTexts, operations := c.operations.map operationTexts
    literals := c.literals.map (·.shown)
    declaredSuperclass := optionalText c.declaredSuperclass
    declaredInterfaces := c.declaredInterfaces.map (·.shown), box := c.box, style := c.style }

def endTexts (e : EndpointOf Value) : Endpoint :=
  ⟨e.key, e.id.shown, e.name.shown, Label.present e.namespaceName, e.kind⟩

def relationshipTexts (r : RelationshipOf Value) : Relationship :=
  { key := r.key, id := r.id.shown, name := r.name.shown, source := endTexts r.source
    target := endTexts r.target, kind := r.kind
    sourceRole := optionalText r.sourceRole, targetRole := optionalText r.targetRole
    sourceMultiplicity := optionalText r.sourceMultiplicity
    targetMultiplicity := optionalText r.targetMultiplicity
    sourceTooltip := optionalText r.sourceTooltip, targetTooltip := optionalText r.targetTooltip
    lineStyle := r.lineStyle, controlPoints := r.controlPoints }

/-- The diagram with the texts that its values show. -/
def texts (d : DiagramOf Value) : Diagram :=
  { uuid := d.uuid.shown, name := Label.present d.name, description := d.description.shown
    author := optionalText d.author, version := optionalText d.version
    showGrid := d.showGrid, snapToGrid := d.snapToGrid, gridSize := d.gridSize
    backgroundColor := d.backgroundColor.shown
    elements := d.elements.map fun
      | .classifier c => .classifier (classifierTexts c)
      | .relationship r => .relationship (relationshipTexts r)
    index := d.index.map fun (id, key) => (id.shown, key) }

/-! ## Pictures and edges -/

/-- The PlantUML text of a diagram. -/
def render (d : DiagramOf Value) : Except Misuse String := do
  needTextIfPresent d.name
  d.classifiers.forM fun c => needHashable c.namespaceName
  d.classifiers.forM fun c => needText c.name
  d.classifiers.forM fun c => do
    needTextIfPresent c.namespaceName
    c.literals.forM needText
    c.fields.forM fun f => do
      needText f.name
      needText f.typeName
    c.operations.forM fun op => do
      op.parameters.forM fun p => do
        needText p.name
        needText p.typeName
      needTextIn op.returnType
      needText op.name
  d.relationships.forM fun r => do
    needTextIn r.sourceMultiplicity
    needTextIn r.targetMultiplicity
    needTextIn r.targetRole
  return PlantUml.render (texts d)

/-- The edges that the classifiers of a diagram call for. -/
def analyze (d : DiagramOf Value) (searchOrder : List String) (withSupertypes : Bool)
    (supply : Supply) : Except Misuse (Inference.Report × Supply) := do
  d.classifiers.forM fun c => needHashable c.name
  if withSupertypes then
    d.classifiers.forM fun c => do
      match c.declaredSuperclass.filter (·.isTruthy) with
      | some v => needSplit v
      | none => pure ()
      c.declaredInterfaces.forM needSplit
  d.classifiers.forM fun c => c.fields.forM fun f => needTextIfPresent f.typeName
  d.classifiers.forM fun c => c.operations.forM fun op => do
    needTextIn op.returnType
    op.parameters.forM fun p => needTextIfPresent p.typeName
  return Inference.analyze (texts d) searchOrder withSupertypes supply

/-- A relationship found among the shown texts, back between the values of the diagram. -/
def relationshipValues (d : DiagramOf Value) (r : Relationship) : RelationshipOf Value :=
  let back (e : Endpoint) : EndpointOf Value :=
    match d.classifiers.find? (·.key == e.key) with
    | some c => c.toEndpoint
    | none => e.map .str
  { r.map Value.str with source := back r.source, target := back r.target }

end ClassAtlas.Document
