import ClassAtlas.CommandLine.Arguments

/-! The commands of the program and their arguments. -/

namespace ClassAtlas.CommandLine

inductive Command where
  | extract (path namespaceHint : String) (asJson : Bool)
  | analyze (path : String) (name? : Option String) (save : Bool)
  | generate (path output : String)
  | plantUml (path : String)
  | serve
deriving Repr, DecidableEq

def programName : String := "classloom"

def commandNames : List String := ["extract", "analyze", "generate", "plantuml", "serve"]

/-- The arguments before the command, and the command with all that follows it. -/
def mainGrammar : Grammar where
  program := programName
  flags := [helpFlag,
    { names := ["--log-level"], choices := ["DEBUG", "INFO", "WARNING", "ERROR"] }]
  positions := [{ name := "command", choices := commandNames, takesRest := true }]

/-- The arguments of a command. -/
def grammarOf (command : String) : Grammar where
  program := programName ++ " " ++ command
  flags := helpFlag :: match command with
    | "extract" => [{ names := ["--namespace"] }, { names := ["--json"], takesValue := false }]
    | "analyze" => [{ names := ["--name"] }, { names := ["--save"], takesValue := false }]
    | "serve" => [{ names := ["--host"] }, { names := ["--port"], isInteger := true }]
    | _ => []
  positions := match command with
    | "serve" => []
    | "generate" => [{ name := "path" }, { name := "output" }]
    | _ => [{ name := "path" }]

/-- The command that its arguments ask for. -/
def Command.ofFound (command : String) (found : Found) : Command :=
  let path := (found.value? "path").getD ""
  match command with
  | "extract" => .extract path ((found.value? "--namespace").getD "") (found.has "--json")
  | "analyze" => .analyze path (found.value? "--name") (found.has "--save")
  | "generate" => .generate path ((found.value? "output").getD "")
  | "plantuml" => .plantUml path
  | _ => .serve

/-- Reads a whole command line. -/
def Command.read (args : List String) : Except Stop Command := do
  let outer ← mainGrammar.read args
  match (outer.words? "command").getD [] with
  | [] => throw (.wrong programName (.missing ["command"]))
  | command :: rest =>
    let inner ← (grammarOf command).read rest
    let extras := outer.extras ++ inner.extras
    if extras.isEmpty then return Command.ofFound command inner
    else throw (.wrong programName (.unrecognized extras))

end ClassAtlas.CommandLine
