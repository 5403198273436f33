import ClassAtlas.Document.Write

/-! The rows of a store. A diagram is one row of its own, one row for each classifier and one for each
relationship; the rows of its elements carry its uuid and their place among all its elements. Columns
hold texts, truth values, numbers and whole JSON values. A text column stores any scalar as its text,
and a number column stores no NaN. -/

namespace ClassAtlas.Store

/-- Why a diagram cannot be stored. -/
inductive SaveError where
  /-- A column that must be filled has no value. -/
  | unfilled
  /-- A text column cannot hold lists and objects. -/
  | unsupported (sort : String)
  /-- An integer that no column can hold. -/
  | tooLarge
deriving Repr, DecidableEq

/-- Numbers in text columns. -/
def numberStyle : Number.FloatStyle := { Value.numberStyle with positionalBelow := 15, infinity := "Inf" }

/-- Integers of columns take eight bytes. -/
def fitsColumn (n : Int) : Bool := Int64.minValue.toInt ≤ n && n ≤ Int64.maxValue.toInt

/-- What a text column holds for a value; null stays null. -/
def textColumn : Value → Except SaveError (Option String)
  | .null => .ok none
  | .str s => .ok (some s)
  | .bool b => .ok (some (if b then "1" else "0"))
  | .int n => if fitsColumn n then .ok (some (toString n)) else .error .tooLarge
  | .float x => .ok (if x.isNaN then none else some (numberStyle.text x))
  | v => .error (.unsupported v.sortName)

/-- What a number column holds. -/
def numberColumn (x : Float) : Option Float := if x.isNaN then none else some x

/-- A number column read back. -/
def ofNumber : Option Float → Value
  | some x => .float x
  | none => .null

/-- A column that must be filled. -/
def filled : Option String → Except SaveError String
  | some s => .ok s
  | none => .error .unfilled

/-- The row of a diagram. -/
structure DiagramRow where
  uuid : String
  name : String
  description : Option String
  author : Option String
  version : Option String
  showGrid : Bool
  snapToGrid : Bool
  gridSize : Option Float
  backgroundColor : Option String
  /-- When one of the columns last changed. -/
  updated : Nat

/-- The row of a classifier. -/
structure ClassifierRow where
  diagram : String
  position : Nat
  elementId : String
  name : String
  namespaceName : Option String
  kind : String
  isAbstract : Bool
  fields : List Value
  operations : List Value
  literals : List Value
  declaredSuperclass : Option String
  declaredInterfaces : List Value
  x : Option Float
  y : Option Float
  width : Option Float
  height : Option Float
  style : Value

/-- The row of a relationship. -/
structure RelationshipRow where
  diagram : String
  position : Nat
  elementId : String
  sourceId : String
  targetId : String
  kind : String
  name : Option String
  sourceRole : Option String
  targetRole : Option String
  sourceMultiplicity : Option String
  targetMultiplicity : Option String
  sourceTooltip : Option String
  targetTooltip : Option String
  lineStyle : Value
  controlPoints : List Value

/-! ## Rows in messages -/

def describeDiagram (uuid name : String) : String :=
  "<ClassDiagramRecord(uuid='" ++ uuid ++ "', name='" ++ name ++ "')>"

def describeClassifier (kind namespaceName name : String) : String :=
  "<ClassifierRecord(kind='" ++ kind ++ "', name='" ++ namespaceName ++ "." ++ name ++ "')>"

def describeRelationship (kind sourceId targetId : String) : String :=
  "<RelationshipRecord(kind='" ++ kind ++ "', " ++ sourceId ++ " -> " ++ targetId ++ ")>"

/-! ## Rows of a diagram -/

variable {τ : Type} [Writable τ]

def column (t : τ) : Except SaveError (Option String) := textColumn (Writable.toValue t)

def optionalColumn (t? : Option τ) : Except SaveError (Option String) :=
  textColumn (Document.ofOption t?)

def DiagramRow.ofDiagram (uuid : String) (updated : Nat) (d : DiagramOf τ) :
    Except SaveError DiagramRow := do
  let name ← column d.name
  let description ← column d.description
  let author ← optionalColumn d.author
  let version ← optionalColumn d.version
  let backgroundColor ← column d.backgroundColor
  return {
    uuid, description, author, version, backgroundColor, updated
    name := ← filled name
    showGrid := d.showGrid
    snapToGrid := d.snapToGrid
    gridSize := numberColumn d.gridSize }

def ClassifierRow.ofClassifier (diagram : String) (position : Nat) (c : ClassifierOf τ) :
    Except SaveError ClassifierRow := do
  let elementId ← column c.id
  let name ← column c.name
  let namespaceName ← column c.namespaceName
  let declaredSuperclass ← optionalColumn c.declaredSuperclass
  return {
    diagram, position, namespaceName, declaredSuperclass
    elementId := ← filled elementId
    name := ← filled name
    kind := c.kind.word
    isAbstract := c.isAbstract
    fields := c.fields.map Document.writeField
    operations := c.operations.map Document.writeOperation
    literals := c.literals.map Writable.toValue
    declaredInterfaces := c.declaredInterfaces.map Writable.toValue
    x := numberColumn c.box.x
    y := numberColumn c.box.y
    width := numberColumn c.box.width
    height := numberColumn c.box.height
    style := Document.writeStyle c.style }

def RelationshipRow.ofRelationship (diagram : String) (position : Nat) (r : RelationshipOf τ) :
    Except SaveError RelationshipRow := do
  let elementId ← column r.id
  let sourceId ← column r.source.id
  let targetId ← column r.target.id
  let name ← column r.name
  let sourceRole ← optionalColumn r.sourceRole
  let targetRole ← optionalColumn r.targetRole
  let sourceMultiplicity ← optionalColumn r.sourceMultiplicity
  let targetMultiplicity ← optionalColumn r.targetMultiplicity
  let sourceTooltip ← optionalColumn r.sourceTooltip
  let targetTooltip ← optionalColumn r.targetTooltip
  return {
    diagram, position, name, sourceRole, targetRole, sourceMultiplicity, targetMultiplicity
    sourceTooltip, targetTooltip
    elementId := ← filled elementId
    sourceId := ← filled sourceId
    targetId := ← filled targetId
    kind := r.kind.word
    lineStyle := Document.writeLineStyle r.lineStyle
    controlPoints := r.controlPoints.map Document.writeControlPoint }

/-! ## Rows as parts of a document -/

/-- An absent text is empty. -/
def textOrEmpty (t? : Option String) : Value := .str (t?.getD "")

def ClassifierRow.toElement (r : ClassifierRow) : Value := .object [
  ("element_type", .str "classifier"),
  ("id", .str r.elementId),
  ("name", .str r.name),
  ("namespace", textOrEmpty r.namespaceName),
  ("kind", .str r.kind),
  ("is_abstract", .bool r.isAbstract),
  ("fields", .list r.fields),
  ("operations", .list r.operations),
  ("literals", .list r.literals),
  ("declared_superclass", Value.ofText? r.declaredSuperclass),
  ("declared_interfaces", .list r.declaredInterfaces),
  ("x", ofNumber r.x),
  ("y", ofNumber r.y),
  ("width", ofNumber r.width),
  ("height", ofNumber r.height),
  ("style", r.style)]

def RelationshipRow.toElement (r : RelationshipRow) : Value := .object [
  ("element_type", .str "relationship"),
  ("id", .str r.elementId),
  ("name", Value.ofText? r.name),
  ("source_id", .str r.sourceId),
  ("target_id", .str r.targetId),
  ("kind", .str r.kind),
  ("source_role", Value.ofText? r.sourceRole),
  ("target_role", Value.ofText? r.targetRole),
  ("source_multiplicity", Value.ofText? r.sourceMultiplicity),
  ("target_multiplicity", Value.ofText? r.targetMultiplicity),
  ("source_tooltip", Value.ofText? r.sourceTooltip),
  ("target_tooltip", Value.ofText? r.targetTooltip),
  ("line_style", r.lineStyle),
  ("control_points", .list r.controlPoints)]

/-- The document of a diagram row with the given elements. -/
def DiagramRow.toDocument (r : DiagramRow) (elements : List Value) : Value := .object [
  ("uuid", .str r.uuid),
  ("name", .str r.name),
  ("description", textOrEmpty r.description),
  ("author", Value.ofText? r.author),
  ("version", Value.ofText? r.version),
  ("show_grid", .bool r.showGrid),
  ("snap_to_grid", .bool r.snapToGrid),
  ("grid_size", ofNumber r.gridSize),
  ("background_color", Value.ofText? r.backgroundColor),
  ("elements", .list elements)]

/-- Whether saving a diagram would leave its row as it is. -/
def DiagramRow.agrees (r : DiagramRow) (d : DiagramOf τ) : Bool :=
  (Value.ofText? r.name).same (Writable.toValue d.name) &&
    (Value.ofText? r.description).same (Writable.toValue d.description) &&
    (Value.ofText? r.author).same (Document.ofOption d.author) &&
    (Value.ofText? r.version).same (Document.ofOption d.version) &&
    r.showGrid == d.showGrid && r.snapToGrid == d.snapToGrid &&
    (ofNumber r.gridSize).same (.float d.gridSize) &&
    (Value.ofText? r.backgroundColor).same (Writable.toValue d.backgroundColor)

end ClassAtlas.Store
