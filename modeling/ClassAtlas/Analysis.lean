import ClassAtlas.Assembly
import ClassAtlas.Files.Scan
import ClassAtlas.Settings.Basic

/-! From sources to a diagram with its edges and places, together with what was noticed on the way. -/

namespace ClassAtlas

structure Analysis where
  diagram : Diagram
  report : Inference.Report
  issues : List Files.ScanIssue := []
  filesScanned : Nat := 0

/-- Why there is no analysis. -/
inductive AnalysisError where
  | source (error : Files.SourceError)
  | refused (reason : Refusal)
deriving Repr, DecidableEq

namespace Analysis

/-- All records become classifiers before edges are looked for, and places are given last. -/
def ofRecords (settings : Settings) (name : String) (records : List Java.TypeRecord)
    (supply : Supply) : Except Refusal (Analysis × Supply) := do
  let (d, supply) ← Assembly.ofRecords name records supply
  let (report, supply) := Inference.analyze d settings.inference.searchOrder
    settings.inference.synthesizeSupertypes supply
  let d ← Assembly.mergedOrRefused (Inference.merge d report.relationships)
  return ({ diagram := d.arrange settings.layout, report }, supply)

/-- The records of texts; the path of a text, if it has one, is only noted. -/
def recordsOf (sources : List (Option String × String)) : List Java.TypeRecord :=
  sources.flatMap fun (path, text) =>
    (Java.extract text "").map fun r => { r with filePath := path }

/-- Analyses texts as one unit. -/
def ofSources (settings : Settings) (name : String) (sources : List (Option String × String))
    (supply : Supply) : Except Refusal (Analysis × Supply) := do
  let (a, supply) ← ofRecords settings name (recordsOf sources) supply
  return ({ a with filesScanned := sources.length }, supply)

/-- The name of a diagram that is given none: the last name on the path. -/
def nameFor (path : String) (name? : Option String) : String :=
  match name?.filter fun s => !s.isEmpty with
  | some name => name
  | none =>
    let base := Path.baseName (Path.normalize path)
    if base.isEmpty then "Untitled" else base

/-- Analyses a file, or all sources below a directory. -/
def ofPath (settings : Settings) (disk : Files.Disk) (path : String) (name? : Option String)
    (supply : Supply) : Except AnalysisError (Analysis × Supply) := do
  let e := settings.extraction
  let scan ← (Files.scan disk ⟨e.sourceSuffixes, e.skipDirectories⟩ { encoding := e.encoding } path).mapError
    AnalysisError.source
  let (a, supply) ← (ofRecords settings (nameFor path name?) scan.records supply).mapError
    AnalysisError.refused
  return ({ a with issues := scan.issues, filesScanned := scan.filesScanned }, supply)

end Analysis

end ClassAtlas
