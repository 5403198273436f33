import ClassAtlas.Analysis
import ClassAtlas.CommandLine.Command
import ClassAtlas.Config.Reader
import ClassAtlas.Files.Output
import ClassAtlas.Java.Written
import ClassAtlas.Settings.Load
import ClassAtlas.Store.Database
import ClassAtlas.Validation
import ClassAtlas.PlantUml

/-! Running commands. A run ends with a code: zero for success, one for defects of a diagram or a broken
generation, two for input, output, settings or arguments that cannot be used. -/

namespace ClassAtlas.CommandLine

/-- The surroundings of a run, and what it has printed. -/
structure Console where
  disk : Files.Disk := {}
  environment : Settings.Environment := []
  /-- How a configuration file is read. -/
  parseConfig : String → Option Value := Config.read?
  database : Store.Database := {}
  supply : Supply := {}
  /-- The settings, once they have been loaded. -/
  settings? : Option Settings := none
  output : String := ""
  errors : String := ""

/-- A run that ends before its time. -/
inductive Abort where
  /-- It prints an error and ends with a code. -/
  | failed (message : String) (code : Nat)
  /-- It ends without a code of its own. -/
  | broken (error : Files.SourceError)
  | access (error : Files.AccessError)
deriving Repr, DecidableEq

def Abort.message : Abort → String
  | failed message _ => message
  | broken e => e.message
  | access e => e.message

abbrev Work (α : Type) := ExceptT Abort (StateM Console) α

def printLine (line : String) : Work Unit :=
  modify fun c => { c with output := c.output ++ line ++ "\n" }

def useSource {α : Type} (result : Except Files.SourceError α) : Work α :=
  match result with
  | .ok a => return a
  | .error e =>
    match e with
    | .unreadable .. => throw (.failed e.message 2)
    | _ => throw (.broken e)

/-- A diagram that clashes with itself cannot come from fresh ids. -/
def useRefusal (r : Refusal) : Abort := .failed r.message 1

/-- A text filled with blanks to a width. -/
def padded (width : Nat) (s : String) : String :=
  s ++ String.ofList (List.replicate (width - s.length) ' ')

def recordLine (r : Java.TypeRecord) : String :=
  padded 9 r.kind.word ++ " " ++ r.qualifiedName ++ "  (" ++ toString r.fields.length ++
    " fields, " ++ toString r.operations.length ++ " operations)"

def runExtract (settings : Settings) (path namespaceHint : String) (asJson : Bool) : Work Nat := do
  let e := settings.extraction
  let reading : Files.Reading := { encoding := e.encoding, namespaceHint }
  let disk := (← get).disk
  let records ← useSource <|
    if disk.isFile path then Files.extractFile disk reading path
    else (·.records) <$> Files.scan disk ⟨e.sourceSuffixes, e.skipDirectories⟩ reading path
  if asJson then printLine (Json.indented (.list (records.map (·.withFile))))
  else records.forM fun r => printLine (recordLine r)
  return 0

def analyzePath (settings : Settings) (path : String) (name? : Option String) : Work Analysis := do
  let c ← get
  match Analysis.ofPath settings c.disk path name? c.supply with
  | .ok (a, supply) =>
    set { c with supply }
    return a
  | .error (.source e) => useSource (.error e)
  | .error (.refused r) => throw (useRefusal r)

def summaryLine (a : Analysis) : String :=
  "Diagram '" ++ a.diagram.name ++ "': " ++ toString a.diagram.classifiers.length ++
    " classifier(s), " ++ toString a.diagram.relationships.length ++ " relationship(s) from " ++
    toString a.filesScanned ++ " file(s)"

def runAnalyze (settings : Settings) (path : String) (name? : Option String) (save : Bool) :
    Work Nat := do
  let a ← analyzePath settings path name?
  printLine (summaryLine a)
  a.issues.forM fun i => printLine ("  skipped " ++ i.filePath ++ ": " ++ i.message)
  a.report.ambiguities.forM fun m =>
    printLine ("  ambiguous " ++ m.reference ++ " in " ++ m.owner ++ ": using " ++ m.chosen)
  let defects := a.diagram.validate
  defects.forM fun defect => printLine ("  ! " ++ defect)
  if save then
    match (← get).database.save a.diagram with
    | .ok database =>
      modify fun c => { c with database }
      printLine ("Saved as " ++ a.diagram.uuid)
    | .error _ => throw (.failed "the diagram cannot be stored" 1)
  return if defects.isEmpty then 0 else 1

def runGenerate (settings : Settings) (path output : String) : Work Nat := do
  let a ← analyzePath settings path none
  let units := Java.placedUnits settings.generator output a.diagram
  let (result, disk) := ((Files.writeBelow output units).run (← get).disk).run
  modify fun c => { c with disk }
  match result with
  | .ok n =>
    printLine ("Generated " ++ toString n ++ " file(s) in " ++ output)
    return 0
  | .error .nullCharacter => throw (.access .nullCharacter)
  | .error .tooNested => throw (.access .tooNested)
  | .error e =>
    let code := match e with
      | .brokenOff .. => 1
      | _ => 2
    throw (.failed e.message code)

def runPlantUml (settings : Settings) (path : String) : Work Nat := do
  let a ← analyzePath settings path none
  modify fun c => { c with output := c.output ++ PlantUml.render a.diagram }
  return 0

def runCommand (settings : Settings) : Command → Work Nat
  | .extract path namespaceHint asJson => runExtract settings path namespaceHint asJson
  | .analyze path name? save => runAnalyze settings path name? save
  | .generate path output => runGenerate settings path output
  | .plantUml path => runPlantUml settings path
  | .serve => throw (.failed "serving is not part of this program" 2)

/-- What is wrong with the settings. -/
def loadMessage (e : Settings.LoadError) : String :=
  "invalid configuration: " ++ e.message?.getD "some settings have wrong values"

/-- The settings of the console's disk and environment, which are loaded once. -/
def loadSettings : Work Settings := do
  let c ← get
  match c.settings? with
  | some settings => return settings
  | none =>
    match Settings.load c.parseConfig c.disk none c.environment with
    | .ok settings =>
      set { c with settings? := some settings }
      return settings
    | .error e => throw (.failed (loadMessage e) 2)

/-- Runs a command line; gives its code, or why it has none. -/
def run (args : List String) (c : Console) : Except Abort Nat × Console :=
  match Command.read args with
  | .error (.help _) => (.ok 0, c)
  | .error (.wrong program e) =>
    (.ok 2, { c with errors := c.errors ++ program ++ ": error: " ++ e.message ++ "\n" })
  | .ok command =>
    match (do runCommand (← loadSettings) command : Work Nat).run c with
    | (.ok code, c) => (.ok code, c)
    | (.error (.failed message code), c) =>
      (.ok code, { c with errors := c.errors ++ "error: " ++ message ++ "\n" })
    | (.error abort, c) => (.error abort, c)

end ClassAtlas.CommandLine
