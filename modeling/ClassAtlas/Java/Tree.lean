import ClassAtlas.Java.Token

/-! Syntax trees of Java text. A node has a kind, may be labelled with the part it plays in its parent,
and has children; a leaf is a token. Text that fits no declaration stands in nodes of kind `error`. -/

namespace ClassAtlas.Java

inductive Kind where
  | program
  | error
  | comment
  /-- A keyword or a mark. -/
  | word
  | identifier
  | package
  | classDeclaration
  | interfaceDeclaration
  | enumDeclaration
  | modifiers
  | annotationUse
  | superclass
  | implementsClause
  | extendsClause
  | typeList
  /-- A type, or any other phrase that is not looked into. -/
  | phrase
  | typeBody
  | enumMembers
  | fieldDeclaration
  | methodDeclaration
  | enumConstant
  | declarator
  | parameterList
  | parameter
  | variableParameter
  /-- A statement block. -/
  | block
  /-- A declaration that gives no record and no member. -/
  | other
deriving Repr, DecidableEq, Inhabited

/-- The part that a node plays in its parent. -/
inductive Part where
  | name
  | body
  | superclass
  | type
  | declarator
  | dimensions
  | value
  | parameters
deriving Repr, DecidableEq, Inhabited

inductive Tree where
  /-- A token; a missing one was put in to complete a declaration. -/
  | leaf (part : Option Part) (kind : Kind) (token : Token) (missing : Bool)
  | node (part : Option Part) (kind : Kind) (children : List Tree)
deriving Inhabited

namespace Tree

def kind : Tree → Kind
  | leaf _ k _ _ => k
  | node _ k _ => k

def part? : Tree → Option Part
  | leaf p _ _ _ => p
  | node p _ _ => p

def children : Tree → List Tree
  | leaf .. => []
  | node _ _ cs => cs

/-- Every node but keywords and marks. -/
def isNamed (t : Tree) : Bool := t.kind != .word

def as (p : Part) : Tree → Tree
  | leaf _ k t m => leaf (some p) k t m
  | node _ k cs => node (some p) k cs

mutual
def leaves : Tree → List Token
  | leaf _ _ t _ => [t]
  | node _ _ cs => leavesOf cs

def leavesOf : List Tree → List Token
  | [] => []
  | t :: rest => leaves t ++ leavesOf rest
end

mutual
/-- Whether a node is an error or holds one, or holds a missing token. -/
def hasError : Tree → Bool
  | leaf _ k _ missing => k == .error || missing
  | node _ k cs => k == .error || anyError cs

def anyError : List Tree → Bool
  | [] => false
  | t :: rest => hasError t || anyError rest
end

/-- The text from the first token of a node to its last. -/
def text (t : Tree) : List Char :=
  match t.leaves with
  | [] => []
  | first :: rest => first.text ++ rest.flatMap Token.full

def string (t : Tree) : String := String.ofList t.text

/-- The line on which a node starts. -/
def line (t : Tree) : Nat := (t.leaves.head?.map (·.line)).getD 0

/-- The first child that plays a part. -/
def child? (t : Tree) (p : Part) : Option Tree := t.children.find? (·.part? == some p)

/-- All children that play a part. -/
def childrenAs (t : Tree) (p : Part) : List Tree := t.children.filter (·.part? == some p)

/-- The first child of a kind. -/
def childOfKind? (t : Tree) (k : Kind) : Option Tree := t.children.find? (·.kind == k)

def namedChildren (t : Tree) : List Tree := t.children.filter (·.isNamed)

mutual
/-- Splits off the comments before a node. -/
def takeComments : Tree → List Comment × Tree
  | leaf p k t m => (t.comments, leaf p k { t with comments := [] } m)
  | node p k cs => ((takeFirstComments cs).1, node p k (takeFirstComments cs).2)

def takeFirstComments : List Tree → List Comment × List Tree
  | [] => ([], [])
  | t :: rest => ((takeComments t).1, (takeComments t).2 :: rest)
end

/-- A node with its comments as children before it. -/
def withComments (t : Tree) : List Tree :=
  let (comments, bare) := t.takeComments
  comments.map (fun c => leaf none .comment (.ofComment c) false) ++ [bare]

/-- Comments belong to the smallest node with something on either side of them: those before a child
other than the first become children themselves. -/
def spread : List Tree → List Tree
  | [] => []
  | first :: rest => first :: rest.flatMap withComments

/-- A node of some children. -/
def make (k : Kind) (cs : List Tree) : Tree := node none k (spread cs)

def word (t : Token) : Tree := leaf none .word t false

def ident (t : Token) : Tree := leaf none .identifier t false

/-- A phrase of some tokens. -/
def flat (k : Kind) (ts : List Token) : Tree := make k (ts.map word)

end Tree

end ClassAtlas.Java
