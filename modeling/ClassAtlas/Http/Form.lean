import ClassAtlas.Http.Message
import ClassAtlas.Schema.Check
import ClassAtlas.Text.Blank

/-! What requests must carry. All complaints about a request are found at once. -/

namespace ClassAtlas.Http

open Schema

abbrev Form (α : Type) := Except (List Complaint) α

/-- The value of a body; an absent one is null. -/
def Body.read : Body → Form Value
  | .absent => .ok .null
  | .value v => .ok v
  | .text s =>
    let cs := match s.toList with
      | '\uFEFF' :: rest => rest
      | cs => cs
    if cs.isEmpty then .ok .null
    else
      match Json.parse (String.ofList cs) with
      | .ok v => .ok v
      | .error e => .error [⟨.json, [.key "body", .place e.position]⟩]

def bodyPath : List Step := [.key "body"]

/-- The parts of a body, which must be there. -/
def Body.parts (b : Body) : Form (List (String × Value)) := do
  match ← b.read with
  | .null => .error [⟨.presence, bodyPath⟩]
  | v => objectAt .parts bodyPath v

/-- A request to extract types. -/
structure ExtractForm where
  source : String
  namespaceHint : String

def ExtractForm.read (b : Body) : Form ExtractForm := do
  let fields ← b.parts
  let (source, c₁) := checkNeeded fields bodyPath "source" "" textAt
  let (hint, c₂) := checkField fields bodyPath "namespace_hint" "" textAt
  settle (⟨source, hint⟩, c₁ ++ c₂)

/-- A request to build a diagram from texts, each with the path it may have. -/
structure SourceForm where
  name : String
  sources : List (Option String × String)
  save : Bool

def sourceAt : Check (Option String × String) := fun path v => do
  let fields ← objectAt .parts path v
  let (file?, c₁) := checkField fields path "path" none optionalTextAt
  let (text, c₂) := checkNeeded fields path "text" "" textAt
  settle ((file?, text), c₁ ++ c₂)

/-- One source or more. -/
def sourcesAt : Check (List (Option String × String)) := fun path v => do
  let sources ← itemsAt sourceAt path v
  if sources.isEmpty then .error [⟨.listOfOneOrMore, path⟩] else .ok sources

def SourceForm.read (b : Body) : Form SourceForm := do
  let fields ← b.parts
  let (name, c₁) := checkField fields bodyPath "name" "Untitled" someTextAt
  let (sources, c₂) := checkNeeded fields bodyPath "sources" [] sourcesAt
  let (save, c₃) := checkField fields bodyPath "save" false truthAt
  settle (⟨name, sources, save⟩, c₁ ++ c₂ ++ c₃)

/-- The document in a body. -/
def documentIn (b : Body) : Form Value := do
  let fields ← b.parts
  settle (checkNeeded fields bodyPath "diagram" (Value.object []) fun path v =>
    (objectAt .mapping path v).map .object)

/-- Digits in which single underscores set groups apart. -/
def groupedDigits? (cs : List Char) : Option Nat :=
  let parts := (String.ofList cs).splitOn "_"
  if parts.all fun part => !part.isEmpty && part.toList.all Char.isDigit then
    some (Number.ofDigitValues ((cs.filter (· != '_')).map fun c => c.toNat - '0'.toNat))
  else none

/-- A whole number with zeros behind its point, without them. -/
def withoutZeroFraction (cs : List Char) : List Char :=
  let whole := cs.takeWhile (· != '.')
  match cs.drop whole.length with
  | '.' :: zeros => if !zeros.isEmpty && zeros.all (· == '0') then whole else cs
  | _ => cs

/-- The integer that a parameter is. -/
def integerOf? (s : String) : Option Int :=
  let (negative, body) := Number.signOf (Text.strip s).toList
  (groupedDigits? (withoutZeroFraction body)).map fun n => if negative then -(n : Int) else n

/-- A parameter that is an integer. -/
def integerIn (r : Request) (name : String) (default : Int) : Form Int :=
  match r.parameter? name with
  | none => .ok default
  | some s =>
    match integerOf? s with
    | some n => .ok n
    | none => .error [⟨.integerNumeral, [.key "query", .key name]⟩]

end ClassAtlas.Http
