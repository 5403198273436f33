import ClassAtlas.Number.Exact
import ClassAtlas.Number.Numeral

/-! Values of documents, settings and requests. Objects keep the order of their keys, and integers are
kept apart from floating-point numbers, so a value that is only passed on comes back as it was. -/

namespace ClassAtlas

inductive Value where
  | null
  | bool (b : Bool)
  | int (n : Int)
  | float (x : Float)
  | str (s : String)
  | list (items : List Value)
  | object (fields : List (String × Value))
deriving Inhabited

namespace Value

/-- The word by which messages name the sort of a value. -/
def sortName : Value → String
  | null => "NoneType"
  | bool _ => "bool"
  | int _ => "int"
  | float _ => "float"
  | str _ => "str"
  | list _ => "list"
  | object _ => "dict"

/-- Null, false, zero, and empty texts, lists and objects count as absent. -/
def isTruthy : Value → Bool
  | null => false
  | bool b => b
  | int n => n != 0
  | float x => x != 0.0
  | str s => !s.isEmpty
  | list items => !items.isEmpty
  | object fields => !fields.isEmpty

/-- Puts a value under a key: an old key keeps its place, a new one goes to the end. -/
def setField (key : String) (value : Value) : List (String × Value) → List (String × Value)
  | [] => [(key, value)]
  | (k, v) :: rest => if k == key then (k, value) :: rest else (k, v) :: setField key value rest

/-- The value under a key of an object; nothing for any other value. -/
def get? (v : Value) (key : String) : Option Value :=
  match v with
  | object fields => fields.lookup key
  | _ => none

def text? : Value → Option String
  | str s => some s
  | _ => none

/-- An absent text is null. -/
def ofText? : Option String → Value
  | some s => str s
  | none => null

def texts (items : List String) : Value := list (items.map str)

/-- A number as a fraction of integers, for comparing numbers of different sorts. -/
inductive Quantity where
  | whole (n : Int)
  | real (x : Float)

def quantity? : Value → Option Quantity
  | bool b => some (.whole (if b then 1 else 0))
  | int n => some (.whole n)
  | float x => some (.real x)
  | _ => none

/-- Numbers are equal when they denote the same number, whatever their sort. -/
def Quantity.same : Quantity → Quantity → Bool
  | .whole m, .whole n => m == n
  | .real x, .real y => x == y
  | .whole n, .real x | .real x, .whole n =>
    ((Number.Exact.ofFloat? x).bind (·.toInt?)) == some n

mutual
/-- Equality of values: numbers by what they denote, objects without regard to the order of keys. -/
def same : Value → Value → Bool
  | null, null => true
  | str s, str t => s == t
  | list xs, list ys => sameItems xs ys
  | object fs, object gs => fs.length == gs.length && sameFields fs gs
  | v, w =>
    match quantity? v, quantity? w with
    | some p, some q => p.same q
    | _, _ => false

def sameItems : List Value → List Value → Bool
  | [], [] => true
  | x :: xs, y :: ys => same x y && sameItems xs ys
  | _, _ => false

/-- Every field of the first list occurs in the second. -/
def sameFields : List (String × Value) → List (String × Value) → Bool
  | [], _ => true
  | (k, v) :: rest, gs =>
    (match gs.lookup k with
      | some w => same v w
      | none => false) && sameFields rest gs
end

end Value

end ClassAtlas
