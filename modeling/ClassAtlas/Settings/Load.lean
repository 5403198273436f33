import ClassAtlas.Files.Disk
import ClassAtlas.Settings.Layers

/-! Loading settings: a configuration file, if there is one, under the environment. How a text is read as a
configuration is left to a parser. -/

namespace ClassAtlas.Settings

inductive LoadError where
  /-- The file holds something else than settings under keys. -/
  | notMapping (path sort : String)
  | unreadable (error : Files.AccessError)
  /-- The file is not in UTF-8. -/
  | undecodable (path : String)
  | malformed (path : String)
  | complaints (cs : List Schema.Complaint)
deriving Repr, DecidableEq

/-- What can be said of the error in a sentence. -/
def LoadError.message? : LoadError → Option String
  | notMapping path sort =>
    some ("Config file " ++ path ++ " must contain a mapping, got " ++ sort)
  | unreadable e => some e.message
  | undecodable _ | malformed _ | complaints _ => none

def standardPath : String := "config/classloom.yaml"

/-- The path that was given, or that of the environment, or the standard one. -/
def configPath (given? : Option String) (env : Environment) : String :=
  match given?.filter fun s => !s.isEmpty with
  | some path => path
  | none => (env.get? "CLASSLOOM_CONFIG").getD standardPath

section Parsed

variable (parse : String → Option Value)

/-- The fields of a configuration file; a missing file, or one with a void value, has none. -/
def fileFields (disk : Files.Disk) (path : String) : Except LoadError (List (String × Value)) :=
  if !disk.isFile path then .ok []
  else
    match disk.read path with
    | .error e => .error (.unreadable e)
    | .ok content =>
      match content.utf8? with
      | none => .error (.undecodable path)
      | some text =>
        match parse (String.ofList (Files.unixLines text.toList)) with
        | none => .error (.malformed path)
        | some (.object fields) => .ok fields
        | some v => if v.isTruthy then .error (.notMapping path v.sortName) else .ok []

def load (disk : Files.Disk) (given? : Option String) (env : Environment) :
    Except LoadError Settings := do
  let fields ← fileFields parse disk (configPath given? env)
  (ofLayers fields env).mapError .complaints

end Parsed

end ClassAtlas.Settings
