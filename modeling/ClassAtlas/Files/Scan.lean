import ClassAtlas.Files.Disk
import ClassAtlas.Files.Names
import ClassAtlas.Java.Extract

/-! Scanning the sources below a directory. The files of a directory come first, by name, then those of
its subdirectories, by name; so the order in which a disk lists its entries does not matter. A file that
cannot be read is noted and passed over. -/

namespace ClassAtlas.Files

/-- Which files of a tree are sources. -/
structure Selection where
  suffixes : List String := [".java"]
  skipDirectories : List String := []

/-- Sources found in a directory, not yet in order: names of its own files, and for each subdirectory
its name and the paths found below it. -/
structure Found where
  files : List String := []
  below : List (String × List String) := []

def byName (a b : String) : Bool := a ≤ b

/-- The paths of what was found in a directory, in order. -/
def Found.paths (path : String) (found : Found) : List String :=
  (found.files.mergeSort byName).map (Path.join path) ++
    (found.below.mergeSort fun a b => byName a.1 b.1).flatMap (·.2)

mutual
/-- The sources below a node at a path. Links to directories are not followed, so the only thing asked
about a link is whether it leads to one. -/
def sourcesBelow (s : Selection) (leadsToDirectory : String → Bool) (path : String) :
    Node → List String
  | .directory entries => (sourcesAmong s leadsToDirectory path entries).paths path
  | _ => []

def sourcesAmong (s : Selection) (leadsToDirectory : String → Bool) (path : String) :
    List (String × Node) → Found
  | [] => {}
  | (name, n) :: rest =>
    let found := sourcesAmong s leadsToDirectory path rest
    let file : Found :=
      if isSourceFile s.suffixes name then { found with files := name :: found.files } else found
    match n with
    | .file _ => file
    | .link _ => if leadsToDirectory (Path.join path name) then found else file
    | .directory entries =>
      if isSkipped s.skipDirectories name then found
      else
        let inside := Path.join path name
        { found with below :=
            (name, sourcesBelow s leadsToDirectory inside (.directory entries)) :: found.below }
end

/-- The sources below the directory at a path. -/
def collect (d : Disk) (s : Selection) (path : String) : List String :=
  match d.node? path with
  | some n => sourcesBelow s d.isDirectory path n
  | none => []

/-- Why there is nothing to extract from. -/
inductive SourceError where
  | unreadable (path reason : String)
  | unknownEncoding (name : String)
  /-- The name of an encoding holds a null character. -/
  | nullInEncoding
  /-- A file cannot be read in the encoding. -/
  | undecodable (reason : String)
  /-- An access failed, but not by the system. -/
  | access (error : AccessError)
deriving Repr, DecidableEq

def SourceError.message : SourceError → String
  | unreadable path reason =>
    "Cannot read source input: " ++ path ++ if reason.isEmpty then "" else " (" ++ reason ++ ")"
  | unknownEncoding name => "unknown encoding: " ++ name
  | nullInEncoding => "embedded null character"
  | undecodable reason => reason
  | access error => error.message

/-- How source files are read. -/
structure Reading where
  encoding : String := "utf-8"
  /-- The namespace of files that declare none. -/
  namespaceHint : String := ""
  codecs : Codecs := Codecs.common

/-- Bytes as a text with line feeds for line ends. -/
def Reading.decoded (r : Reading) (bytes : List UInt8) : Except SourceError String :=
  match r.codecs r.encoding with
  | none => .error (.unknownEncoding r.encoding)
  | some decode => ((decode bytes).mapError .undecodable).map fun cs => String.ofList (unixLines cs)

/-- The text of a file, or why the system refused it. -/
def sourceText (d : Disk) (r : Reading) (path : String) :
    Except SourceError (Except SystemError String) :=
  if r.encoding.toList.contains '\x00' then .error .nullInEncoding
  else
    match d.read path with
    | .ok content => (r.decoded content.toBytes).map .ok
    | .error (.system e _) => .ok (.error e)
    | .error e => .error (.access e)

/-- The types that a text declares, noted with its path. -/
def recordsOf (path text hint : String) : List Java.TypeRecord :=
  (Java.extract text hint).map fun r => { r with filePath := some path }

/-- The types of one file. -/
def extractFile (d : Disk) (r : Reading) (path : String) :
    Except SourceError (List Java.TypeRecord) := do
  match ← sourceText d r path with
  | .ok text => return recordsOf path text r.namespaceHint
  | .error e => throw (.unreadable path (AccessError.system e path).message)

/-- A file that was passed over. -/
structure ScanIssue where
  filePath : String
  message : String
deriving Repr, DecidableEq

/-- What became of one file of a scan. -/
inductive Outcome where
  | extracted (records : List Java.TypeRecord)
  | passedOver (issue : ScanIssue)

namespace Outcome

def records : Outcome → List Java.TypeRecord
  | extracted records => records
  | passedOver _ => []

def issue? : Outcome → Option ScanIssue
  | extracted _ => none
  | passedOver issue => some issue

end Outcome

/-- Extracts from one file, or passes it over. -/
def examine (d : Disk) (r : Reading) (path : String) : Except SourceError Outcome := do
  match ← sourceText d r path with
  | .ok text => return .extracted (recordsOf path text r.namespaceHint)
  | .error e => return .passedOver ⟨path, (AccessError.system e path).message⟩

structure Scan where
  rootPath : String
  records : List Java.TypeRecord
  issues : List ScanIssue
  filesScanned : Nat

/-- The scan whose files came to these outcomes. -/
def Scan.ofOutcomes (rootPath : String) (outcomes : List Outcome) : Scan where
  rootPath := rootPath
  records := outcomes.flatMap (·.records)
  issues := outcomes.filterMap (·.issue?)
  filesScanned := outcomes.countP (·.issue?.isNone)

/-- The files to scan for a path: the file itself, or the sources below a directory. -/
def filesToScan (d : Disk) (s : Selection) (path : String) : Except SourceError (List String) :=
  if d.isFile path then .ok [path]
  else if d.isDirectory path then .ok (collect d s path)
  else .error (.unreadable path "no such file or directory")

/-- Scans a file, or all sources below a directory. -/
def scan (d : Disk) (s : Selection) (r : Reading) (path : String) : Except SourceError Scan := do
  let files ← filesToScan d s path
  return Scan.ofOutcomes path (← files.mapM (examine d r))

end ClassAtlas.Files
