/-! What is wrong with a value that was sent or configured: what was asked for, and where. -/

namespace ClassAtlas.Schema

/-- What a value should have been. -/
inductive Demand where
  /-- One of the log levels. -/
  | level
  | presence
  | text
  | textOfOneOrMore
  | listOfParts
  | listOfOneOrMore
  | number
  /-- A text that is a numeral. -/
  | numeral
  /-- A text that is the numeral of an integer. -/
  | integerNumeral
  | truth
  /-- A text or a number that stands for a truth value. -/
  | truthWord
  | mapping
  | group
  /-- A group, or anything that has parts of those names. -/
  | parts
  | json
deriving Repr, DecidableEq

/-- The word by which reports name what was wrong. -/
def Demand.word : Demand → String
  | level => "value_error"
  | presence => "missing"
  | text => "string_type"
  | textOfOneOrMore => "string_too_short"
  | listOfParts => "list_type"
  | listOfOneOrMore => "too_short"
  | number => "float_type"
  | numeral => "float_parsing"
  | integerNumeral => "int_parsing"
  | truth => "bool_type"
  | truthWord => "bool_parsing"
  | mapping => "dict_type"
  | group => "model_type"
  | parts => "model_attributes_type"
  | json => "json_invalid"

/-- What should have been, in a sentence. -/
def Demand.sentence : Demand → String
  | level => "Value error"
  | presence => "Field required"
  | text => "Input should be a valid string"
  | textOfOneOrMore => "String should have at least 1 character"
  | listOfParts => "Input should be a valid list"
  | listOfOneOrMore => "List should have at least 1 item after validation, not 0"
  | number => "Input should be a valid number"
  | numeral => "Input should be a valid number, unable to parse string as a number"
  | integerNumeral => "Input should be a valid integer, unable to parse string as an integer"
  | truth => "Input should be a valid boolean"
  | truthWord => "Input should be a valid boolean, unable to interpret input"
  | mapping => "Input should be a valid dictionary"
  | group => "Input should be a valid dictionary"
  | parts => "Input should be a valid dictionary or object to extract fields from"
  | json => "JSON decode error"

/-- A step on the way to a value. -/
inductive Step where
  | key (name : String)
  | place (index : Nat)
deriving Repr, DecidableEq

structure Complaint where
  demand : Demand
  path : List Step
deriving Repr, DecidableEq

end ClassAtlas.Schema
