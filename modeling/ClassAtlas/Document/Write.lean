import ClassAtlas.Diagram.Basic

/-! Writing a diagram as a document. Elements stand in diagram order, relationships name their ends by
id, and every key is written, with null for what is absent. -/

namespace ClassAtlas

/-- Fillings that a document can hold. -/
class Writable (τ : Type) where
  toValue : τ → Value

instance : Writable String := ⟨.str⟩

instance : Writable Value := ⟨id⟩

namespace Document

variable {τ : Type} [Writable τ]

def ofOption : Option τ → Value
  | none => .null
  | some t => Writable.toValue t

def writeParameter (p : ParameterOf τ) : Value := .object [
  ("name", Writable.toValue p.name),
  ("type_name", Writable.toValue p.typeName),
  ("default_value", ofOption p.defaultValue)]

def writeField (f : FieldOf τ) : Value := .object [
  ("name", Writable.toValue f.name),
  ("type_name", Writable.toValue f.typeName),
  ("default_value", ofOption f.defaultValue),
  ("visibility", .str f.visibility.word),
  ("is_static", .bool f.isStatic),
  ("is_final", .bool f.isFinal)]

def writeOperation (op : OperationOf τ) : Value := .object [
  ("name", Writable.toValue op.name),
  ("return_type", ofOption op.returnType),
  ("visibility", .str op.visibility.word),
  ("is_static", .bool op.isStatic),
  ("is_abstract", .bool op.isAbstract),
  ("is_final", .bool op.isFinal),
  ("parameters", .list (op.parameters.map writeParameter))]

def writeStyle (s : Style) : Value := .object [
  ("fill_color", s.fillColor), ("border_color", s.borderColor), ("border_width", s.borderWidth)]

def writeLineStyle (s : LineStyle) : Value := .object [
  ("color", s.color), ("width", .float s.width), ("dash", .str s.dash.word)]

def writeControlPoint (p : ControlPoint) : Value := .object [("x", p.x), ("y", p.y)]

/-- The keys of a classifier. -/
def classifierFields (c : ClassifierOf τ) : List (String × Value) := [
  ("id", Writable.toValue c.id),
  ("name", Writable.toValue c.name),
  ("namespace", Writable.toValue c.namespaceName),
  ("kind", .str c.kind.word),
  ("is_abstract", .bool c.isAbstract),
  ("fields", .list (c.fields.map writeField)),
  ("operations", .list (c.operations.map writeOperation)),
  ("literals", .list (c.literals.map Writable.toValue)),
  ("declared_superclass", ofOption c.declaredSuperclass),
  ("declared_interfaces", .list (c.declaredInterfaces.map Writable.toValue)),
  ("x", .float c.box.x),
  ("y", .float c.box.y),
  ("width", .float c.box.width),
  ("height", .float c.box.height),
  ("style", writeStyle c.style)]

/-- The keys of a relationship. -/
def relationshipFields (r : RelationshipOf τ) : List (String × Value) := [
  ("id", Writable.toValue r.id),
  ("name", Writable.toValue r.name),
  ("source_id", Writable.toValue r.source.id),
  ("target_id", Writable.toValue r.target.id),
  ("kind", .str r.kind.word),
  ("source_role", ofOption r.sourceRole),
  ("target_role", ofOption r.targetRole),
  ("source_multiplicity", ofOption r.sourceMultiplicity),
  ("target_multiplicity", ofOption r.targetMultiplicity),
  ("source_tooltip", ofOption r.sourceTooltip),
  ("target_tooltip", ofOption r.targetTooltip),
  ("line_style", writeLineStyle r.lineStyle),
  ("control_points", .list (r.controlPoints.map writeControlPoint))]

def writeElement : ElementOf τ → Value
  | .classifier c => .object (("element_type", .str "classifier") :: classifierFields c)
  | .relationship r => .object (("element_type", .str "relationship") :: relationshipFields r)

/-- Writes a whole diagram. -/
def write (d : DiagramOf τ) : Value := .object [
  ("uuid", Writable.toValue d.uuid),
  ("name", Writable.toValue d.name),
  ("description", Writable.toValue d.description),
  ("author", ofOption d.author),
  ("version", ofOption d.version),
  ("show_grid", .bool d.showGrid),
  ("snap_to_grid", .bool d.snapToGrid),
  ("grid_size", .float d.gridSize),
  ("background_color", Writable.toValue d.backgroundColor),
  ("elements", .list (d.elements.map writeElement))]

end Document

end ClassAtlas
