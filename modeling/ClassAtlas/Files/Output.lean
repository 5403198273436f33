import ClassAtlas.Files.Disk

/-! Writing texts below a directory, one file after the other. A failure ends the run; what was written
before it stays, and the failure tells how many files that were. -/

namespace ClassAtlas.Files

inductive OutputError where
  /-- The output path is no directory and cannot become one. -/
  | unusable (path reason : String)
  /-- A file could not be written after so many others. -/
  | brokenOff (written : Nat) (path reason : String)
  | nullCharacter
  | tooNested
deriving Repr, DecidableEq

/-- An empty path or reason is left out. -/
def OutputError.message : OutputError → String
  | unusable path reason =>
    "Output path is not a usable directory: " ++ path ++
      if reason.isEmpty then "" else " (" ++ reason ++ ")"
  | brokenOff written path reason =>
    "Code generation failed after " ++ toString written ++ " file(s)" ++
      (if path.isEmpty then "" else " while writing " ++ path) ++
      if reason.isEmpty then "" else ": " ++ reason
  | nullCharacter => AccessError.nullCharacter.message
  | tooNested => AccessError.tooNested.message

/-- Work on a disk that ends with the result or with an error of the whole run. -/
abbrev OutputWork (α : Type) := ExceptT OutputError (StateM Disk) α

/-- Work on a disk whose failures mean an error of the run. -/
def asOutput {α : Type} (failure : AccessError → OutputError) (work : DiskWork α) : OutputWork α :=
  work.adapt fun
    | .nullCharacter => .nullCharacter
    | .tooNested => .tooNested
    | e => failure e

section Nested

-- How many calls may nest while directories are made, if that is limited.
variable (nesting? : Option Nat)

/-- Makes sure that the output path is a directory. -/
def prepareRoot (root : String) : OutputWork Unit := do
  let d ← get
  if d.pathExists root && !d.isDirectory root then
    throw (.unusable root "exists and is not a directory")
  asOutput (fun e => .unusable root e.message) (Disk.makeDirectories nesting? root)

/-- Writes a file in a directory that is made if need be. -/
def writeFile (path text : String) : DiskWork Unit := do
  Disk.makeDirectories nesting? (Path.directory path)
  Disk.write path text

/-- Writes files in order; gives the number of all written files. -/
def writeFiles (written : Nat) : List (String × String) → OutputWork Nat
  | [] => return written
  | (path, text) :: rest => do
    asOutput (fun e => .brokenOff written path e.message) (writeFile nesting? path text)
    writeFiles (written + 1) rest

/-- Writes files with paths below a root. -/
def writeBelowWithin (root : String) (files : List (String × String)) : OutputWork Nat := do
  prepareRoot nesting? root
  writeFiles nesting? 0 files

end Nested

/-- Writes files below a root, where calls may nest as they need. -/
def writeBelow (root : String) (files : List (String × String)) : OutputWork Nat :=
  writeBelowWithin none root files

end ClassAtlas.Files
