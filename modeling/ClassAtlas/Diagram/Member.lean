import ClassAtlas.Diagram.Kind
import ClassAtlas.Diagram.Label

/-! Members of a classifier: fields, and operations with their parameters. -/

namespace ClassAtlas

/-- A parameter of an operation. Its default value is documentation only. -/
structure ParameterOf (τ : Type) where
  name : τ
  typeName : τ
  defaultValue : Option τ := none
deriving Repr, DecidableEq

structure FieldOf (τ : Type) where
  name : τ
  typeName : τ
  defaultValue : Option τ := none
  visibility : Visibility := .private
  isStatic : Bool := false
  isFinal : Bool := false
deriving Repr, DecidableEq

/-- An operation; without a return type it gives nothing back. -/
structure OperationOf (τ : Type) where
  name : τ
  returnType : Option τ := none
  visibility : Visibility := .public
  isStatic : Bool := false
  isAbstract : Bool := false
  isFinal : Bool := false
  parameters : List (ParameterOf τ) := []
deriving Repr, DecidableEq

abbrev Parameter := ParameterOf String
abbrev Field := FieldOf String
abbrev Operation := OperationOf String

variable {τ σ : Type}

def ParameterOf.map (f : τ → σ) (p : ParameterOf τ) : ParameterOf σ :=
  ⟨f p.name, f p.typeName, p.defaultValue.map f⟩

def FieldOf.map (f : τ → σ) (d : FieldOf τ) : FieldOf σ :=
  { name := f d.name, typeName := f d.typeName, defaultValue := d.defaultValue.map f
    visibility := d.visibility, isStatic := d.isStatic, isFinal := d.isFinal }

def OperationOf.map (f : τ → σ) (op : OperationOf τ) : OperationOf σ :=
  { name := f op.name, returnType := op.returnType.map f, visibility := op.visibility
    isStatic := op.isStatic, isAbstract := op.isAbstract, isFinal := op.isFinal
    parameters := op.parameters.map (·.map f) }

end ClassAtlas
