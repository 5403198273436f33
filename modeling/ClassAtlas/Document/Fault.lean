import ClassAtlas.Diagram.Basic

/-! What can be wrong with a document. Documents are not checked against a schema: reading takes what
it needs, in a fixed order, and stops at the first thing that does not serve. -/

namespace ClassAtlas.Document

/-- The closed vocabularies of documents. -/
inductive Vocabulary where
  | classifierKind
  | visibility
  | relationshipKind
  | dashPattern
deriving Repr, DecidableEq

def Vocabulary.title : Vocabulary → String
  | classifierKind => "ClassifierKind"
  | visibility => "Visibility"
  | relationshipKind => "RelationshipKind"
  | dashPattern => "DashPattern"

/-- Why a document is refused. Values appear by the name of their sort or in quotes. -/
inductive Fault where
  | missingKey (key : String)
  | unknownWord (quoted : String) (vocabulary : Vocabulary)
  | notNumeral (quoted : String)
  | notNumber (sort : String)
  | numberTooLarge
  | notIterable (sort : String)
  | notObject (sort : String)
  | noFields (v : Value)
  | unhashable (sort : String)
  | styleNotObject (sort : String)
  | styleKey (key : String)
  | unknownEnd (relationship id : String)
  | refused (reason : Refusal)

/-- Whether a relationship speaks of a classifier that is not there. -/
def Fault.isDangling : Fault → Bool
  | unknownEnd .. | refused (.dangling ..) => true
  | _ => false

def Fault.message : Fault → String
  | missingKey key => Value.quotedText key
  | unknownWord quoted vocabulary => quoted ++ " is not a valid " ++ vocabulary.title
  | notNumeral quoted => "could not convert string to float: " ++ quoted
  | notNumber sort => "float() argument must be a string or a real number, not '" ++ sort ++ "'"
  | numberTooLarge => "int too large to convert to float"
  | notIterable sort => "'" ++ sort ++ "' object is not iterable"
  | notObject sort => "'" ++ sort ++ "' object has no attribute 'get'"
  | noFields (.list _) => "list indices must be integers or slices, not str"
  | noFields (.str _) => "string indices must be integers, not 'str'"
  | noFields v => "'" ++ v.sortName ++ "' object is not subscriptable"
  | unhashable sort => "unhashable type: '" ++ sort ++ "'"
  | styleNotObject sort =>
    "classloom.core.uml.models.Style() argument after ** must be a mapping, not " ++ sort
  | styleKey key => "Style.__init__() got an unexpected keyword argument " ++ Value.quotedText key
  | unknownEnd relationship id =>
    "Relationship '" ++ relationship ++ "' references unknown classifier id " ++ id
  | refused reason => reason.message

end ClassAtlas.Document
