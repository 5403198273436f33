import ClassAtlas.Files.Decoding
import ClassAtlas.Files.Node
import ClassAtlas.Files.Path

/-! A disk: a tree of files with the troubles that accesses to it meet. Reading changes nothing. Each
change is tried in turn and may fail by itself, whatever the tree; a failed change leaves the tree as
it is, except that a file which broke off in the midst of writing keeps what had reached it. -/

namespace ClassAtlas.Files

/-- Why a change fails by itself. -/
structure Mishap where
  error : SystemError
  /-- How many characters reach a file that could still be opened. -/
  reached : Option Nat := none
deriving Repr, DecidableEq

structure Disk where
  top : Node := .directory []
  /-- The error by which reading a path fails, if it does. -/
  unreadable : String → Option SystemError := fun _ => none
  /-- What befalls the change of a number, if anything does. -/
  mishap : Nat → Option Mishap := fun _ => none
  /-- How many changes were tried. -/
  changes : Nat := 0

/-- The system takes no path that is longer than this many bytes. -/
def longestPath : Nat := 4095

/-- What is found at a path, if the system takes the path. -/
def admitted (path : String) (found : Except AccessError Arrival) : Except AccessError Arrival :=
  match found with
  | .error .nullCharacter => .error .nullCharacter
  | found => if longestPath < path.utf8ByteSize then .error (.system .nameTooLong path) else found

/-- Work on a disk that may fail; what was changed before a failure stays changed. -/
abbrev DiskWork (α : Type) := ExceptT AccessError (StateM Disk) α

namespace Disk

/-- The disk that holds some nodes at their paths. -/
def ofFiles (files : List (String × Node)) : Disk where
  top := files.foldl (fun top (path, n) => Node.grow n top (Path.names path)) (.directory [])

/-- The node at the end of a path. -/
def node? (d : Disk) (path : String) : Option Node :=
  match admitted path (locate d.top true path) with
  | .ok (.present _ n) => some n
  | _ => none

def pathExists (d : Disk) (path : String) : Bool := (d.node? path).isSome

def isFile (d : Disk) (path : String) : Bool :=
  match d.node? path with
  | some (.file _) => true
  | _ => false

def isDirectory (d : Disk) (path : String) : Bool :=
  match d.node? path with
  | some (.directory _) => true
  | _ => false

/-- What the file at a path holds. -/
def read (d : Disk) (path : String) : Except AccessError Content :=
  match d.unreadable path, admitted path (locate d.top true path) with
  | some e, _ => .error (.system e path)
  | none, .ok (.present _ (.file content)) => .ok content
  | none, .ok (.present _ (.directory _)) => .error (.system .isDirectory path)
  | none, .ok _ => .error (.system .missing path)
  | none, .error e => .error e

/-- The disk with a node put at a place. -/
def set (d : Disk) (place : List String) (n : Node) : Disk := { d with top := Node.put n d.top place }

/-- The disk after one more change was tried. -/
def tick (d : Disk) : Disk := { d with changes := d.changes + 1 }

/-- Makes one directory; its own directory must be there. -/
def makeDirectory (path : String) : DiskWork Unit := do
  let d ← modifyGet fun d => (d, d.tick)
  let bare := String.ofList (path.toList.reverse.dropWhile (· == '/')).reverse
  match d.mishap d.changes, admitted path (locate d.top false (if bare.isEmpty then path else bare)) with
  | some m, _ => throw (.system m.error path)
  | none, .ok (.present ..) => throw (.system .taken path)
  | none, .ok (.free place) => modify (·.set place (.directory []))
  | none, .error (.system e _) => throw (.system e path)
  | none, .error e => throw e

/-- Makes a directory with those above it, each within the call for the one below; so many calls may nest.
It is no error if the directory is there. -/
def makeDirectoriesWithin : Nat → String → DiskWork Unit
  | 0, _ => throw .tooNested
  | nesting + 1, path => do
    let (head, tail) := Path.parting path
    if !head.isEmpty && !tail.isEmpty && !(← get).pathExists head then
      try makeDirectoriesWithin nesting head
      catch e =>
        match e with
        | .system .taken _ => pure ()
        | _ => throw e
      if tail == "." then return
    try makeDirectory path
    catch e => if (← get).isDirectory path then pure () else throw e

/-- Makes a directory with those above it. If nothing says how many calls may nest, there can be one for each
name on the path. -/
def makeDirectories (nesting? : Option Nat) (path : String) : DiskWork Unit :=
  makeDirectoriesWithin (nesting?.getD (path.length + 1)) path

/-- Writes a text to a file in the place of what it held. -/
def write (path text : String) : DiskWork Unit := do
  let d ← modifyGet fun d => (d, d.tick)
  let put (place : List String) : DiskWork Unit :=
    match d.mishap d.changes with
    | none => modify (·.set place (.file (.text text)))
    | some m => do
      match m.reached with
      | some n => modify (·.set place (.file (.text (String.ofList (text.toList.take n)))))
      | none => pure ()
      throw (.system m.error path)
  match admitted path (locate d.top true path) with
  | .error e => throw e
  | .ok (.present place (.file _)) => put place
  | .ok (.present ..) => throw (.system .isDirectory path)
  | .ok (.free place) => if path.endsWith "/" then throw (.system .isDirectory path) else put place

end Disk

/-- The bytes of what a file holds. -/
def Content.toBytes : Content → List UInt8
  | text s => s.toUTF8.toList
  | bytes bs => bs

/-- The text of what a file holds, if that is in UTF-8 throughout. -/
def Content.utf8? : Content → Option String
  | text s => some s
  | bytes bs => String.fromUTF8? ⟨bs.toArray⟩

end ClassAtlas.Files
