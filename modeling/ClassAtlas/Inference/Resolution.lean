import ClassAtlas.Diagram.Basic
import ClassAtlas.Text.UpperCase

/-! What a type name means as seen from a classifier. A dotted name is looked up as a qualified name
first; if it starts with an upper-case letter its last segment is then looked up as a simple name. Of
several classifiers with one simple name, the owner's namespace decides, then the search order, then
the order in the diagram. -/

namespace ClassAtlas.Inference

/-- The classifiers that names can mean, in diagram order, and the namespaces to prefer. -/
structure Scope where
  classifiers : List Classifier
  searchOrder : List String

/-- What a name was found to mean. -/
inductive Finding where
  | nothing
  | qualified (c : Classifier)
  | only (c : Classifier)
  | several (name : String) (candidates : List Classifier) (chosen : Classifier)

def Finding.target? : Finding → Option Classifier
  | nothing => none
  | qualified c | only c => some c
  | several _ _ chosen => some chosen

/-- Takes out every empty pair of square brackets. -/
def dropPairs : List Char → List Char
  | '[' :: ']' :: rest => dropPairs rest
  | c :: rest => c :: dropPairs rest
  | [] => []

/-- Takes out every run of three points. -/
def dropPoints : List Char → List Char
  | '.' :: '.' :: '.' :: rest => dropPoints rest
  | c :: rest => c :: dropPoints rest
  | [] => []

/-- A type text without its type arguments, array brackets and points. -/
def bareName (s : String) : List Char :=
  Text.stripChars (dropPoints (dropPairs (s.toList.takeWhile (· != '<'))))

/-- The characters behind the last point. -/
def lastSegment (cs : List Char) : List Char := (cs.reverse.takeWhile (· != '.')).reverse

def startsUpper : List Char → Bool
  | c :: _ => Text.isUpperCase c
  | [] => false

namespace Scope

def named (s : Scope) (name : String) : List Classifier := s.classifiers.filter (·.name == name)

def qualified? (s : Scope) (name : String) : Option Classifier :=
  s.classifiers.find? (·.qualifiedName == name)

/-- The preferred one of several classifiers. -/
def prefer (s : Scope) (owner first : Classifier) (candidates : List Classifier) : Classifier :=
  let within (n : String) := candidates.find? (·.namespaceName == n)
  ((within owner.namespaceName).or (s.searchOrder.findSome? within)).getD first

/-- The meaning of a simple name. -/
def lookUp (s : Scope) (owner : Classifier) (name : String) : Finding :=
  match s.named name with
  | [] => .nothing
  | [c] => .only c
  | first :: others =>
    .several name (first :: others) (s.prefer owner first (first :: others))

/-- The meaning of a type text. -/
def find (s : Scope) (owner : Classifier) (text : String) : Finding :=
  let bare := bareName text
  if bare.isEmpty then .nothing
  else if bare.contains '.' then
    match s.qualified? (String.ofList bare) with
    | some c => .qualified c
    | none =>
      if startsUpper bare then s.lookUp owner (String.ofList (lastSegment bare)) else .nothing
  else s.lookUp owner (String.ofList bare)

def resolve (s : Scope) (owner : Classifier) (text : String) : Option Classifier :=
  (s.find owner text).target?

end Scope

end ClassAtlas.Inference
