import ClassAtlas.Diagram.Element
import ClassAtlas.Files.Path

/-! Where a classifier's unit goes: one directory for each segment of its namespace, then its name with
the suffix of source files. -/

namespace ClassAtlas.Java

def outputPath {τ : Type} [Label τ] (namespaceName name : τ) (root suffix : String) : String :=
  let segments :=
    if Label.isVoid namespaceName then [] else (Label.shown namespaceName).splitOn "."
  Path.joinAll root (segments ++ [Label.shown name ++ suffix])

end ClassAtlas.Java
