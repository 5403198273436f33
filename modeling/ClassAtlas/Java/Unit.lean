import ClassAtlas.Java.Imports
import ClassAtlas.Java.OutputPath

/-! The Java unit of a classifier: package line, imports, a documented type header, fields, and
operations with stub bodies. -/

namespace ClassAtlas.Java

/-- How units are written. -/
structure UnitStyle where
  defaultNamespace : String := "java.util"
  indent : String := "\t"
  fileSuffix : String := ".java"
deriving Repr, DecidableEq

/-- Words with one space between them; empty ones are left out. -/
def phrase (words : List String) : String := " ".intercalate (words.filter fun w => !w.isEmpty)

/-- The word if the condition holds. -/
def wordIf (condition : Bool) (word : String) : String := if condition then word else ""

variable {τ : Type} [Label τ]

/-- The names of the targets of a classifier's outgoing edges of some kinds. -/
def supertypeNames (c : ClassifierOf τ) (relationships : List (RelationshipOf τ))
    (kinds : List RelationshipKind) : List String :=
  (relationships.filter fun r => r.source.key == c.key && kinds.contains r.kind).map
    fun r => Label.shown r.target.name

/-- A clause of a header; without names there is none. -/
def clause (keyword : String) (names : List String) : String :=
  if names.isEmpty then "" else " " ++ keyword ++ " " ++ ", ".intercalate names

def header (c : ClassifierOf τ) (relationships : List (RelationshipOf τ)) : String :=
  let implemented := clause "implements" (supertypeNames c relationships [.implementation])
  match c.kind with
  | .interface =>
    "public interface " ++ Label.shown c.name ++
      clause "extends" (supertypeNames c relationships [.inheritance, .implementation])
  | .enumeration => "public enum " ++ Label.shown c.name ++ implemented
  | .«class» =>
    phrase ["public", wordIf c.isAbstract "abstract", "class", Label.present c.name] ++
      clause "extends" ((supertypeNames c relationships [.inheritance]).take 1) ++ implemented

/-- A documentation comment with a summary and tags. -/
def documentation (indent summary : String) (tags : List String) : List String :=
  [indent ++ "/**", indent ++ " * " ++ summary] ++ tags.map (fun tag => indent ++ " * " ++ tag) ++
    [indent ++ " */"]

/-- Text for a default value that is there and not empty. -/
def defaultText (before after : String) : Option τ → String
  | some text => if Label.isVoid text then "" else before ++ Label.shown text ++ after
  | none => ""

def fieldLines (f : FieldOf τ) (indent : String) : List String :=
  let declaration := phrase
    [f.visibility.keyword, wordIf f.isStatic "static", wordIf f.isFinal "final",
      Label.present f.typeName, Label.present f.name]
  documentation indent (Label.shown f.name) [] ++
    [indent ++ declaration ++ defaultText " = " "" f.defaultValue ++ ";"]

theorem fieldLines_string (f : Field) (indent : String) :
    fieldLines f indent = documentation indent f.name [] ++
      [indent ++ phrase [f.visibility.keyword, wordIf f.isStatic "static", wordIf f.isFinal "final",
        f.typeName, f.name] ++ defaultText " = " "" f.defaultValue ++ ";"] := by
  simp only [fieldLines, Label.shown_string, Label.present_string]

def parameterText (p : ParameterOf τ) : String :=
  Label.shown p.typeName ++ " " ++ Label.shown p.name ++ defaultText " /* = " " */" p.defaultValue

/-- The word for an operation's return type; an empty one is none. -/
def returnWord (op : OperationOf τ) : String :=
  match op.returnType with
  | some t => if Label.isVoid t then voidWord else Label.shown t
  | none => voidWord

def signature (op : OperationOf τ) : String :=
  phrase [op.visibility.keyword, wordIf op.isStatic "static", wordIf op.isAbstract "abstract",
    wordIf op.isFinal "final", returnWord op,
    Label.shown op.name ++ "(" ++ ", ".intercalate (op.parameters.map parameterText) ++ ")"]

def operationTags (op : OperationOf τ) : List String :=
  op.parameters.map (fun p => "@param " ++ Label.shown p.name) ++
    if returnWord op == voidWord then [] else ["@return"]

def operationLines (op : OperationOf τ) (owner : ClassifierKind) (indent : String) : List String :=
  documentation indent (Label.shown op.name) (operationTags op) ++
    if owner == .interface || op.isAbstract then [indent ++ signature op ++ ";"]
    else
      [indent ++ signature op ++ " \x7b"] ++
        (if returnWord op == voidWord then []
          else [indent ++ indent ++ "return " ++ stubValue (returnWord op) ++ ";"]) ++
        [indent ++ "\x7d"]

/-- The lines of each member. -/
def memberBlocks (c : ClassifierOf τ) (indent : String) : List (List String) :=
  c.fields.map (fieldLines · indent) ++ c.operations.map (operationLines · c.kind indent)

/-- The constants of an enumeration; members can only follow a closed list, even an empty one. -/
def constantLines (c : ClassifierOf τ) (indent : String) : List String :=
  let hasMembers := !c.fields.isEmpty || !c.operations.isEmpty
  if c.kind == .enumeration && (!c.literals.isEmpty || hasMembers) then
    [indent ++ ", ".intercalate (c.literals.map Label.shown) ++ wordIf hasMembers ";", ""]
  else []

def importLines (names : List String) : List String :=
  if names.isEmpty then [] else names.map (fun name => "import " ++ name ++ ";") ++ [""]

/-- The lines of a unit. -/
def unitLines [BEq τ] (style : UnitStyle) (c : ClassifierOf τ)
    (relationships : List (RelationshipOf τ)) (known : List (EndpointOf τ)) : List String :=
  (if Label.isVoid c.namespaceName then []
    else ["package " ++ Label.shown c.namespaceName ++ ";", ""]) ++
    importLines (imports ⟨known, style.defaultNamespace⟩ c relationships) ++
    documentation "" (Label.shown c.name) [] ++
    [header c relationships ++ " \x7b", ""] ++
    constantLines c style.indent ++
    (memberBlocks c style.indent).flatMap (fun block => block ++ [""]) ++
    ["\x7d"]

/-- The text of a classifier's unit. Without known classifiers, names can mean the classifier itself
and the ends of the relationships. -/
def generate [BEq τ] (style : UnitStyle) (c : ClassifierOf τ)
    (relationships : List (RelationshipOf τ)) (known? : Option (List (EndpointOf τ)) := none) :
    String :=
  "\n".intercalate (unitLines style c relationships (known?.getD (endpoints c relationships))) ++ "\n"

/-- The text of a classifier's unit within its diagram. -/
def unitOf [BEq τ] (style : UnitStyle) (d : DiagramOf τ) (c : ClassifierOf τ) : String :=
  generate style c d.relationships (some (d.classifiers.map (·.toEndpoint)))

/-- Puts a text under a path: an old path keeps its place and gets the new text. -/
def putFile (path text : String) : List (String × String) → List (String × String)
  | [] => [(path, text)]
  | (p, old) :: rest => if p == path then (p, text) :: rest else (p, old) :: putFile path text rest

/-- All units of a diagram under their paths; of several with one path the last remains. -/
def units [BEq τ] (style : UnitStyle) (d : DiagramOf τ) : List (String × String) :=
  d.classifiers.foldl (fun files c =>
    putFile (outputPath c.namespaceName c.name "" style.fileSuffix) (unitOf style d c) files) []

/-- The unit of each classifier, in order, with its path below a root. -/
def placedUnits [BEq τ] (style : UnitStyle) (root : String) (d : DiagramOf τ) :
    List (String × String) :=
  d.classifiers.map fun c =>
    (outputPath c.namespaceName c.name root style.fileSuffix, unitOf style d c)

end ClassAtlas.Java
