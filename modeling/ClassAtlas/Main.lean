import ClassAtlas.CommandLine.Run

/-! The program. A run reads what its command names into a disk of its own, works on that, and writes
back the texts that the command has put below its output; so a stored diagram lasts as long as the run. -/

namespace ClassAtlas

/-- What the system's refusal of a read amounts to. -/
def Files.SystemError.ofRefusal : IO.Error → Files.SystemError
  | .permissionDenied .. => .denied
  | .noFileOrDirectory .. => .missing
  | _ => .failed

/-- A tree that was read, and the paths at which reading failed. -/
structure Loaded where
  node : Files.Node
  refused : List (String × Files.SystemError) := []

/-- Reads a file, whose bytes matter only if a command may ask for them. It is kept as bytes, so that a
text in the tree is always one that a command has written. -/
def loadFile (path : String) (wanted : Bool) : IO Loaded := do
  if !wanted then return ⟨.file (.bytes []), []⟩
  try
    return ⟨.file (.bytes (← IO.FS.readBinFile path).toList), []⟩
  catch e =>
    return ⟨.file (.bytes []), [(path, .ofRefusal e)]⟩

/-- Reads the entries of a directory. A link to a directory is left out, since no scan follows it. -/
partial def loadDirectory (suffixes : List String) (path : String)
    (entries : List IO.FS.DirEntry) : IO Loaded := do
  let mut nodes : List (String × Files.Node) := []
  let mut refused := []
  for entry in entries do
    let place := Path.join path entry.fileName
    let isLink := (← entry.path.symlinkMetadata).type == .symlink
    if (← entry.path.isDir) then
      if !isLink then
        let inside ← loadDirectory suffixes place (← entry.path.readDir).toList
        nodes := (entry.fileName, inside.node) :: nodes
        refused := inside.refused ++ refused
    else if (← entry.path.pathExists) then
      let file ← loadFile place (Files.isSourceFile suffixes entry.fileName)
      nodes := (entry.fileName, file.node) :: nodes
      refused := file.refused ++ refused
  return ⟨.directory nodes.reverse, refused⟩

/-- Reads what stands at a path, if anything does. -/
def loadPath (suffixes : List String) (path : String) : IO (Option Loaded) := do
  let entry : IO.FS.DirEntry := ⟨(← IO.currentDir), path⟩
  if (← entry.path.isDir) then
    return some (← loadDirectory suffixes path (← entry.path.readDir).toList)
  else if (← entry.path.pathExists) then return some (← loadFile path true)
  else return none

/-- The disk with a tree at its path. -/
def Files.Disk.withLoaded (d : Files.Disk) (path : String) (loaded : Loaded) : Files.Disk where
  top := Files.Node.grow loaded.node d.top (Path.resolveNames true (Path.names path))
  unreadable p := (loaded.refused.lookup p).or (d.unreadable p)

/-- The disk with what stands at some paths. -/
def loadDisk (suffixes : List String) (d : Files.Disk) (paths : List String) : IO Files.Disk :=
  paths.foldlM (fun d path => do
    match ← loadPath suffixes path with
    | some loaded => return d.withLoaded path loaded
    | none => return d) d

/-- The variables that settings look at. -/
def settingVariables : List String :=
  ["CLASSLOOM_CONFIG", "DATABASE_URL", "CLASSLOOM_LOG_LEVEL", "CLASSLOOM_DEFAULT_IMPORT_NAMESPACE",
    "CLASSLOOM_SYNTHESIZE_SUPERTYPES"]

def loadEnvironment : IO Settings.Environment :=
  settingVariables.filterMapM fun name => do
    return (← IO.getEnv name).map fun value => (name, value)

/-- Writes the texts of a tree below a path. -/
partial def storeNode (path : String) : Files.Node → IO Unit
  | .directory entries => do
    IO.FS.createDirAll path
    entries.forM fun (name, n) => storeNode (Path.join path name) n
  | .file (.text s) => IO.FS.writeFile path s
  | _ => pure ()

/-- The paths that a command reads, and that below which it writes. -/
def CommandLine.Command.paths : CommandLine.Command → List String × Option String
  | .extract path .. | .analyze path .. | .plantUml path => ([path], none)
  | .generate path output => ([path], some output)
  | .serve => ([], none)

end ClassAtlas

open ClassAtlas in
/-- Runs a command line on the files of the system. -/
def main (args : List String) : IO UInt32 := do
  let environment ← loadEnvironment
  let configured ← loadDisk [] {} [Settings.configPath none environment]
  let suffixes :=
    match Settings.load Config.read? configured none environment with
    | .ok settings => settings.extraction.sourceSuffixes
    | .error _ => []
  let (read, written?) :=
    match CommandLine.Command.read args with
    | .ok command => command.paths
    | .error _ => ([], none)
  let within ← loadDisk [] configured written?.toList
  let disk ← loadDisk suffixes within read
  let (result, after) := CommandLine.run args { disk, environment }
  match written? with
  | some path => (after.disk.node? path).forM (storeNode path)
  | none => pure ()
  IO.print after.output
  IO.eprint after.errors
  match result with
  | .ok code => return code.toUInt32
  | .error e =>
    IO.eprintln (CommandLine.Abort.message e)
    return 1
