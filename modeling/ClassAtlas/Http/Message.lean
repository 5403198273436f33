import ClassAtlas.Files.Decoding
import ClassAtlas.Value.Json

/-! Requests and responses. The target of a request is a path and a query, in which any byte may be
written as a percent sign and two digits. -/

namespace ClassAtlas.Http

inductive Body where
  | absent
  | value (v : Value)
  /-- A text that has still to be read as JSON. -/
  | text (s : String)

structure Request where
  method : String
  target : String
  body : Body := .absent

/-- A response with a JSON body, or with a text, which is then a JSON text as well. -/
structure Response where
  status : Nat
  body : Value

/-- The bytes of a text in which percent signs stand for bytes. -/
def bytesOf : List Char → List UInt8
  | '%' :: a :: b :: rest =>
    match Json.hexValue? a, Json.hexValue? b with
    | some m, some n => UInt8.ofNat (16 * m + n) :: bytesOf rest
    | _, _ => '%'.val.toUInt8 :: bytesOf (a :: b :: rest)
  | c :: rest => (String.singleton c).toUTF8.toList ++ bytesOf rest
  | [] => []

def percentDecoded (cs : List Char) : String := String.ofList (Files.utf8 (bytesOf cs))

/-- The path of a target. -/
def Request.path (r : Request) : String := percentDecoded (r.target.toList.takeWhile (· != '?'))

/-- A name and a value of a query. -/
def queryItem (item : String) : String × String :=
  let cs := (item.toList.map fun c => if c == '+' then ' ' else c)
  let name := cs.takeWhile (· != '=')
  (percentDecoded name, percentDecoded (cs.drop (name.length + 1)))

/-- The names and values of the query, in order. -/
def Request.query (r : Request) : List (String × String) :=
  let cs := r.target.toList.dropWhile (· != '?')
  ((String.ofList (cs.drop 1)).splitOn "&").filterMap fun item =>
    if item.isEmpty then none else some (queryItem item)

/-- The last value that a query gives to a name. -/
def Request.parameter? (r : Request) (name : String) : Option String :=
  r.query.reverse.lookup name

end ClassAtlas.Http
