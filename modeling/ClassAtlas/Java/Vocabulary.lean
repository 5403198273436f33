/-! Words of Java that diagrams have to know: types that never stand for a classifier, types that never
need an import, and words inside a type that are no types. -/

namespace ClassAtlas.Java

def numericPrimitives : List String := ["byte", "short", "int", "long", "float", "double"]

def primitives : List String := numericPrimitives ++ ["boolean", "char"]

/-- Stands in place of a return type when an operation gives nothing back. -/
def voidWord : String := "void"

/-- Words inside a type expression that name no type. -/
def typeWords : List String := ["extends", "super", "final"]

/-- Types of the package that every unit sees without an import. -/
def alwaysVisible : List String := [
  "Object", "String", "StringBuilder", "StringBuffer", "CharSequence",
  "Boolean", "Byte", "Character", "Short", "Integer", "Long", "Float", "Double",
  "Number", "Void", "Class", "Enum", "Record", "Math", "System", "Thread",
  "Runnable", "Iterable", "Comparable", "Cloneable", "AutoCloseable", "Override",
  "Exception", "RuntimeException", "Error", "Throwable",
  "IllegalArgumentException", "IllegalStateException",
  "NullPointerException", "UnsupportedOperationException"]

/-- A single capital letter stands for a type variable. -/
def isTypeVariable (name : String) : Bool :=
  match name.toList with
  | [c] => c.isUpper
  | _ => false

/-- What the body of a stub gives back for a return type. -/
def stubValue (returnType : String) : String :=
  if returnType == "boolean" then "false"
  else if numericPrimitives.contains returnType then "0"
  else if returnType == "char" then "'\\0'"
  else "null"

end ClassAtlas.Java
