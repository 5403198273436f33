import ClassAtlas.Diagram.Supply
import ClassAtlas.Document.Fault

/-! Reading a diagram from a document. The header comes first, then all classifiers in order, then all
relationships in order, so a relationship may stand before its ends. Absent keys have defaults; for
some keys an empty value counts as absent. Texts are taken as they stand, whatever their sort. -/

namespace ClassAtlas.Document

/-- The value under a key that must be there. -/
def require (v : Value) (key : String) : Except Fault Value :=
  match v with
  | .object fields =>
    match fields.lookup key with
    | some found => .ok found
    | none => .error (.missingKey key)
  | other => .error (.noFields other)

/-- The fields of a value that must be an object. -/
def fieldsOf : Value → Except Fault (List (String × Value))
  | .object fields => .ok fields
  | other => .error (.notObject other.sortName)

/-- The value under a key, or a default if the key is absent. -/
def valueOr (fields : List (String × Value)) (key : String) (default : Value) : Value :=
  (fields.lookup key).getD default

/-- The value under a key; null is the same as no value. -/
def optional (fields : List (String × Value)) (key : String) : Option Value :=
  match fields.lookup key with
  | none | some .null => none
  | some v => some v

/-- The value under a key, or a default if it is absent or void. -/
def presentOr (fields : List (String × Value)) (key : String) (default : Value) : Value :=
  match fields.lookup key with
  | some v => if v.isTruthy then v else default
  | none => default

def flag (fields : List (String × Value)) (key : String) (default : Bool) : Bool :=
  (valueOr fields key (.bool default)).isTruthy

/-- The parts of a value: items of a list, keys of an object, characters of a text. -/
def partsOf : Value → Except Fault (List Value)
  | .list items => .ok items
  | .object fields => .ok (fields.map fun entry => .str entry.1)
  | .str s => .ok (s.toList.map fun c => .str (String.singleton c))
  | other => .error (.notIterable other.sortName)

/-- A number: any sort of number, or a text that is a numeral. -/
def realOf : Value → Except Fault Float
  | .float x => .ok x
  | .bool b => .ok (if b then 1.0 else 0.0)
  | .int n =>
    match Number.floatOfInt? n with
    | some x => .ok x
    | none => .error .numberTooLarge
  | .str s =>
    match Number.floatOfText? s with
    | some x => .ok x
    | none => .error (.notNumeral (Value.quotedText s))
  | other => .error (.notNumber other.sortName)

/-- A word of a vocabulary. -/
def wordOf {α : Type} (ofWord? : String → Option α) (vocabulary : Vocabulary) (v : Value) :
    Except Fault α :=
  match v.text?.bind ofWord? with
  | some meaning => .ok meaning
  | none => .error (.unknownWord v.quoted vocabulary)

/-- Lists and objects cannot be looked up under. -/
def asKey (v : Value) : Except Fault Value :=
  match v with
  | .list _ | .object _ => .error (.unhashable v.sortName)
  | _ => .ok v

def readParameter (v : Value) : Except Fault (ParameterOf Value) := do
  let name ← require v "name"
  let typeName ← require v "type_name"
  let fields ← fieldsOf v
  return { name, typeName, defaultValue := optional fields "default_value" }

def readField (v : Value) : Except Fault (FieldOf Value) := do
  let name ← require v "name"
  let typeName ← require v "type_name"
  let fields ← fieldsOf v
  let visibility ← wordOf Visibility.ofWord? .visibility (valueOr fields "visibility" (.str "private"))
  return {
    name, typeName, visibility
    defaultValue := optional fields "default_value"
    isStatic := flag fields "is_static" false
    isFinal := flag fields "is_final" false }

def readOperation (v : Value) : Except Fault (OperationOf Value) := do
  let name ← require v "name"
  let fields ← fieldsOf v
  let visibility ← wordOf Visibility.ofWord? .visibility (valueOr fields "visibility" (.str "public"))
  let parameters ← (← partsOf (valueOr fields "parameters" (.list []))).mapM readParameter
  return {
    name, visibility, parameters
    returnType := optional fields "return_type"
    isStatic := flag fields "is_static" false
    isAbstract := flag fields "is_abstract" false
    isFinal := flag fields "is_final" false }

/-- A style replaces the standard one key by key; it may have no other keys. -/
def readStyle (v : Value) : Except Fault Style :=
  match v with
  | .object fields => fields.foldlM (fun style (key, given) =>
      if key == "fill_color" then .ok { style with fillColor := given }
      else if key == "border_color" then .ok { style with borderColor := given }
      else if key == "border_width" then .ok { style with borderWidth := given }
      else .error (.styleKey key)) {}
  | other => .error (.styleNotObject other.sortName)

/-- A classifier that has no key yet, and no id unless the document gives one. -/
def readClassifier (v : Value) : Except Fault (ClassifierOf Value) := do
  let fields ← fieldsOf v
  let name ← require v "name"
  let kind ← wordOf ClassifierKind.ofWord? .classifierKind (valueOr fields "kind" (.str "class"))
  let members ← (← partsOf (valueOr fields "fields" (.list []))).mapM readField
  let operations ← (← partsOf (valueOr fields "operations" (.list []))).mapM readOperation
  let literals ← partsOf (valueOr fields "literals" (.list []))
  let interfaces ← partsOf (valueOr fields "declared_interfaces" (.list []))
  let x ← realOf (valueOr fields "x" (.float 0.0))
  let y ← realOf (valueOr fields "y" (.float 0.0))
  let width ← realOf (valueOr fields "width" (.float 200.0))
  let height ← realOf (valueOr fields "height" (.float 150.0))
  let style ← readStyle (presentOr fields "style" (.object []))
  return {
    name, kind, operations, literals, style
    key := 0
    id := presentOr fields "id" .null
    namespaceName := presentOr fields "namespace" (.str "")
    isAbstract := flag fields "is_abstract" false
    fields := members
    declaredSuperclass := optional fields "declared_superclass"
    declaredInterfaces := interfaces
    box := ⟨x, y, width, height⟩ }

def readLineStyle (v : Value) : Except Fault LineStyle := do
  let fields ← fieldsOf v
  let width ← realOf (valueOr fields "width" (.float 1.0))
  let dash ← wordOf DashPattern.ofWord? .dashPattern (valueOr fields "dash" (.str "SOLID"))
  return { width, dash, color := valueOr fields "color" (.str "#000000") }

def readControlPoint (v : Value) : Except Fault ControlPoint := do
  return ⟨← require v "x", ← require v "y"⟩

/-- A relationship between classifiers of a diagram; it has no key yet, and no id and no name unless
the document gives them. -/
def readRelationship (d : DiagramOf Value) (v : Value) : Except Fault (RelationshipOf Value) := do
  let sourceId ← asKey (← require v "source_id")
  let source? := d.classifierById? sourceId
  let targetId ← asKey (← require v "target_id")
  let target? := d.classifierById? targetId
  let fields ← fieldsOf v
  match source?, target? with
  | some source, some target =>
    let kind ← wordOf RelationshipKind.ofWord? .relationshipKind (← require v "kind")
    let lineStyle ← readLineStyle (presentOr fields "line_style" (.object []))
    let points ← (← partsOf (valueOr fields "control_points" (.list []))).mapM readControlPoint
    return {
      kind, lineStyle
      key := 0
      id := presentOr fields "id" .null
      name := presentOr fields "name" (.str "")
      source := source.toEndpoint
      target := target.toEndpoint
      sourceRole := optional fields "source_role"
      targetRole := optional fields "target_role"
      sourceMultiplicity := optional fields "source_multiplicity"
      targetMultiplicity := optional fields "target_multiplicity"
      sourceTooltip := optional fields "source_tooltip"
      targetTooltip := optional fields "target_tooltip"
      controlPoints := points }
  | none, _ => .error (.unknownEnd (valueOr fields "name" (.str "")).shown sourceId.shown)
  | _, none => .error (.unknownEnd (valueOr fields "name" (.str "")).shown targetId.shown)

/-- Reads a classifier and gives it a key, and an id if it has none. -/
def makeClassifier (v : Value) : Making Fault (ClassifierOf Value) := do
  let c ← readClassifier v
  modifyGet (·.enrolClassifier c)

/-- Reads a relationship and gives it a key, and an id and a name if it has none. -/
def makeRelationship (d : DiagramOf Value) (v : Value) : Making Fault (RelationshipOf Value) := do
  let r ← readRelationship d v
  modifyGet (·.enrolRelationship r)

/-- Reads an element into a diagram if it is a classifier. -/
def addClassifierElement (d : DiagramOf Value) (v : Value) : Making Fault (DiagramOf Value) := do
  let fields ← fieldsOf v
  if (valueOr fields "element_type" (.str "classifier")).text? == some "classifier" then
    let c ← makeClassifier v
    discard (asKey c.id)
    liftM ((d.addClassifier c).mapError Fault.refused)
  else return d

/-- Reads an element into a diagram if it is a relationship. -/
def addRelationshipElement (d : DiagramOf Value) (v : Value) : Making Fault (DiagramOf Value) := do
  let fields ← fieldsOf v
  if (fields.lookup "element_type").bind (·.text?) == some "relationship" then
    let r ← makeRelationship d v
    liftM ((d.addRelationship r).mapError Fault.refused)
  else return d

/-- The header of a document as a diagram without elements. -/
def readHeader (v : Value) : Making Fault (DiagramOf Value) := do
  let name ← require v "name"
  let fields ← fieldsOf v
  let d ← modifyGet (DiagramOf.empty name (presentOr fields "description" (.str ""))
    (optional fields "author") (optional fields "version") (optional fields "uuid"))
  let gridSize ← realOf (valueOr fields "grid_size" (.float 20.0))
  return { d with
    gridSize
    showGrid := flag fields "show_grid" true
    snapToGrid := flag fields "snap_to_grid" true
    backgroundColor := presentOr fields "background_color" (.str "#FFFFFF") }

/-- Reads a whole document. -/
def read (v : Value) : Making Fault (DiagramOf Value) := do
  let header ← readHeader v
  let fields ← fieldsOf v
  let elements ← partsOf (valueOr fields "elements" (.list []))
  let d ← elements.foldlM addClassifierElement header
  elements.foldlM addRelationshipElement d

end ClassAtlas.Document
