import ClassAtlas.Settings.Check

/-! Settings come in layers: the defaults, above them a file, above that the environment. Layers are
laid over each other path by path, so a layer hides only what it gives itself. -/

namespace ClassAtlas.Settings

mutual
/-- Lays fields over fields. -/
def overlay (base : List (String × Value)) : List (String × Value) → List (String × Value)
  | [] => base
  | (key, v) :: rest => overlay (Value.setField key (overlayValue (base.lookup key) v) base) rest

/-- Lays a value over what is there: an object over an object field by field, anything else hides it. -/
def overlayValue (base? : Option Value) : Value → Value
  | .object fields =>
    match base? with
    | some (.object base) => .object (overlay base fields)
    | _ => .object fields
  | v => v
end

/-- Variables of the environment, with those of a `.env` file among them; an empty one counts as absent. -/
abbrev Environment := List (String × String)

def Environment.get? (env : Environment) (name : String) : Option String :=
  (env.lookup name).filter fun s => !s.isEmpty

/-- Whether a word says yes. No character but the capital letters has a letter of these words for its lower
case. -/
def saysYes (s : String) : Bool :=
  let word := String.ofList ((Text.strip s).toList.map Char.toLower)
  ["1", "true", "yes", "on"].contains word

/-- A field that is there only with a value. -/
def fieldIf (key : String) (v? : Option Value) : List (String × Value) :=
  match v? with
  | some v => [(key, v)]
  | none => []

/-- A group that is there only with a field. -/
def groupIf (key : String) (fields : List (String × Value)) : List (String × Value) :=
  if fields.isEmpty then [] else [(key, .object fields)]

/-- The settings that the environment gives. -/
def ofEnvironment (env : Environment) : List (String × Value) :=
  fieldIf "database_url" ((env.get? "DATABASE_URL").map .str) ++
    fieldIf "log_level" ((env.get? "CLASSLOOM_LOG_LEVEL").map fun s => .str (Text.upper s)) ++
    groupIf "generator" (fieldIf "default_import_namespace"
      ((env.get? "CLASSLOOM_DEFAULT_IMPORT_NAMESPACE").map .str)) ++
    groupIf "inference" (fieldIf "synthesize_supertypes"
      ((env.get? "CLASSLOOM_SYNTHESIZE_SUPERTYPES").map fun s => .bool (saysYes s)))

/-- Settings of a file's fields under an environment. -/
def ofLayers (file : List (String × Value)) (env : Environment) :
    Except (List Schema.Complaint) Settings :=
  check (overlay file (ofEnvironment env))

end ClassAtlas.Settings
