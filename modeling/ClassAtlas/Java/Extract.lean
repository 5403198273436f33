import ClassAtlas.Diagram.Member
import ClassAtlas.Diagram.Element
import ClassAtlas.Java.Declaration
import ClassAtlas.Java.Lexer
import ClassAtlas.Java.TypeText

/-! The type records of a unit. A record is made for every class, interface and enumeration that is
declared in the unit or, at any depth, directly in the body of such a declaration; a declaration whose
header holds an error gives none, and neither does anything inside it. A record comes before those of
the types declared in it. -/

namespace ClassAtlas.Java

/-- A type declaration found in source text. Supertypes are names as they stand there; what an
interface extends is among its interfaces. -/
structure TypeRecord where
  name : String
  namespaceName : String
  kind : ClassifierKind
  isAbstract : Bool := false
  superclass : Option String := none
  interfaces : List String := []
  fields : List Field := []
  operations : List Operation := []
  literals : List String := []
  filePath : Option String := none
  startLine : Nat := 0
deriving Repr, DecidableEq

def TypeRecord.qualifiedName (r : TypeRecord) : String := qualify r.namespaceName r.name

namespace Extract

def typeKind? : Kind → Option ClassifierKind
  | .classDeclaration => some .«class»
  | .interfaceDeclaration => some .interface
  | .enumDeclaration => some .enumeration
  | _ => none

/-- Whether anything outside the body of a declaration is wrong. -/
def headerHasError (t : Tree) : Bool :=
  t.children.any fun c => c.kind != .typeBody && c.kind != .block && c.hasError

/-- The text of the child that plays a part, if it is there and not empty. -/
def partText? (t : Tree) (p : Part) : Option String :=
  ((t.child? p).map (·.string)).filter fun s => !s.isEmpty

/-- The modifier words of a declaration, without its annotations. -/
def modifierWords (t : Tree) : List String :=
  match t.childOfKind? .modifiers with
  | some m => (m.children.filter fun c => c.kind != .annotationUse).map (·.string)
  | none => []

/-- The access that modifiers give. Members of an interface are public unless they say otherwise. -/
def visibility (words : List String) (inInterface : Bool) : Visibility :=
  if words.contains "public" then .public
  else if words.contains "private" then .private
  else if words.contains "protected" then .protected
  else if inInterface then .public else .package

def normalized (t : Tree) : String := TypeText.normalize t.string

/-- What stands first behind the word that introduces the superclass. -/
def superclass? (t : Tree) : Option String :=
  ((t.child? .superclass).bind (·.namedChildren.head?)).map normalized

/-- Everything listed in a clause of supertypes. -/
def listed (t : Tree) (clause : Kind) : List String :=
  match t.childOfKind? clause with
  | some c =>
    (c.namedChildren.filter (·.kind == .typeList)).flatMap fun l => l.namedChildren.map normalized
  | none => []

/-! ## Members -/

/-- The type of a declared name: its own brackets follow the common type. -/
def declaredType (base : String) (declarator : Tree) : String :=
  match declarator.child? .dimensions with
  | some d => TypeText.normalize (base ++ d.string)
  | none => base

/-- One field for each declarator. -/
def fields (owner : ClassifierKind) (t : Tree) : List Field :=
  if headerHasError t then []
  else
    match t.child? .type with
    | none => []
    | some typeTree =>
      let base := normalized typeTree
      let words := modifierWords t
      let inInterface := owner == .interface
      (t.childrenAs .declarator).filterMap fun d =>
        (partText? d .name).map fun name =>
          { name := name
            typeName := declaredType base d
            defaultValue := (d.child? .value).map fun v => Text.strip v.string
            visibility := visibility words inInterface
            isStatic := inInterface || words.contains "static"
            isFinal := inInterface || words.contains "final" }

def plainParameter? (t : Tree) : Option Parameter := do
  let typeTree ← t.child? .type
  let name ← partText? t .name
  let brackets := ((t.child? .dimensions).map (·.string)).getD ""
  return { name, typeName := TypeText.normalize (typeTree.string ++ brackets) }

/-- A parameter for any number of arguments: what stands first behind the modifiers is its type. -/
def variableParameter? (t : Tree) : Option Parameter := do
  let parts := t.namedChildren.filter fun c => c.kind != .modifiers
  let first ← parts.head?
  let last ← parts.getLast?
  if parts.length < 2 || last.kind != .declarator then none
  else
    let name ← partText? last .name
    return { name, typeName := normalized first ++ "..." }

def parameter? (t : Tree) : Option Parameter :=
  match t.kind with
  | .parameter => plainParameter? t
  | .variableParameter => variableParameter? t
  | _ => none

def operation? (owner : ClassifierKind) (t : Tree) : Option Operation := do
  if headerHasError t then none
  else
    let name ← partText? t .name
    let typeTree ← t.child? .type
    let params ← t.child? .parameters
    let returned := normalized typeTree
    let words := modifierWords t
    return {
      name
      returnType := if returned == "void" then none else some returned
      visibility := visibility words (owner == .interface)
      isStatic := words.contains "static"
      isAbstract := words.contains "abstract"
      isFinal := words.contains "final"
      parameters := params.namedChildren.filterMap parameter? }

/-! ## Types -/

/-- The members of a body; those behind the constants of an enumeration count as direct members. -/
def memberNodes (body : Tree) : List Tree :=
  body.children.flatMap fun c => if c.kind == .enumMembers then c.children else [c]

/-- The fields among the members of a type. -/
def memberFields (owner : ClassifierKind) (members : List Tree) : List Field :=
  members.flatMap fun m => if m.kind == .fieldDeclaration then fields owner m else []

/-- The operations among the members of a type; none bears the name of the type. -/
def memberOperations (owner : ClassifierKind) (typeName : String) (members : List Tree) :
    List Operation :=
  (members.filterMap fun m =>
    if m.kind == .methodDeclaration then operation? owner m else none).filter
      fun op => op.name != typeName

/-- The constants among the members of a type. -/
def memberLiterals (members : List Tree) : List String :=
  members.filterMap fun m => if m.kind == .enumConstant then partText? m .name else none

/-- The record of a declaration by itself. -/
def record (kind : ClassifierKind) (name namespaceName : String) (t : Tree) : TypeRecord :=
  let members := ((t.child? .body).map memberNodes).getD []
  { name, namespaceName, kind
    isAbstract := kind == .«class» && (modifierWords t).contains "abstract"
    superclass := if kind == .«class» then superclass? t else none
    interfaces := listed t (if kind == .interface then .extendsClause else .implementsClause)
    fields := memberFields kind members
    operations := memberOperations kind name members
    literals := memberLiterals members
    startLine := t.line }

theorem sizeOf_lt_of_mem_children {t c : Tree} (h : c ∈ t.children) : sizeOf c < sizeOf t := by
  cases t with
  | leaf => simp [Tree.children] at h
  | node p k cs =>
    have := List.sizeOf_lt_of_mem (show c ∈ cs from h)
    simp only [Tree.node.sizeOf_spec]
    omega

theorem sizeOf_lt_of_mem_members {t b c : Tree} (hb : t.child? .body = some b)
    (hc : c ∈ memberNodes b) : sizeOf c < sizeOf t := by
  have below := sizeOf_lt_of_mem_children (List.mem_of_find?_eq_some hb)
  simp only [memberNodes, List.mem_flatMap] at hc
  obtain ⟨d, hd, hc⟩ := hc
  have := sizeOf_lt_of_mem_children hd
  split at hc
  · have := sizeOf_lt_of_mem_children hc
    omega
  · simp only [List.mem_singleton] at hc
    subst hc
    omega

/-- The records of a declaration and of the types declared in its body. -/
def recordsOf (namespaceName : String) (t : Tree) : List TypeRecord :=
  match typeKind? t.kind with
  | none => []
  | some kind =>
    match partText? t .name with
    | none => []
    | some name =>
      if headerHasError t then []
      else
        record kind name namespaceName t ::
          match _h : t.child? .body with
          | none => []
          | some b => (memberNodes b).attach.flatMap fun m => recordsOf namespaceName m.1
termination_by sizeOf t
decreasing_by exact sizeOf_lt_of_mem_members (by assumption) m.2

/-- The records of the declarations among some nodes; errors are looked into. -/
def collect (namespaceName : String) (t : Tree) : List TypeRecord :=
  if t.kind == .error then t.children.attach.flatMap fun c => collect namespaceName c.1
  else recordsOf namespaceName t
termination_by sizeOf t
decreasing_by exact sizeOf_lt_of_mem_children c.2

/-- The name that a package declaration gives, without spaces; the first declaration counts. -/
def packageName (unit : Tree) : String :=
  let names := (unit.children.filter (·.kind == .package)).filterMap fun p =>
    p.namedChildren.find? (·.kind == .identifier)
  match names with
  | first :: _ => String.ofList (first.text.filter (· != ' '))
  | [] => ""

/-- The records of a unit's tree. The package comes before the hint. -/
def ofTree (unit : Tree) (hint : String) : List TypeRecord :=
  let declared := packageName unit
  let namespaceName := if declared.isEmpty then hint else declared
  unit.children.flatMap (collect namespaceName)

end Extract

/-- The type records of source text. -/
def extract (source : String) (hint : String := "") : List TypeRecord :=
  Extract.ofTree (Declaration.unit (Lexer.tokens source.toList)) hint

end ClassAtlas.Java
