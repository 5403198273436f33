import ClassAtlas.Files.Path

/-! Which files a scan reads and which directories it leaves alone. -/

namespace ClassAtlas.Files

/-- Directories that hold no sources of their own. -/
def builtOrForeign : List String :=
  [".git", ".svn", ".hg", ".idea", ".gradle", "node_modules", "build", "target", "out", "bin",
    "__pycache__"]

def isSourceFile (suffixes : List String) (path : String) : Bool :=
  suffixes.contains (Path.extension path)

/-- Hidden directories are skipped, and those that are listed. -/
def isSkipped (extra : List String) (name : String) : Bool :=
  builtOrForeign.contains name || extra.contains name || name.startsWith "."

end ClassAtlas.Files
