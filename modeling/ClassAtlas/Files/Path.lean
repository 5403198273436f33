/-! Paths: names set apart by slashes. Joining keeps an absolute part and drops what precedes it. The
extension of a base name starts at its last point, leading points aside. -/

namespace ClassAtlas.Path

/-- Puts a part behind a path: an absolute part replaces the path, and no slash is doubled. -/
def join (path part : String) : String :=
  if part.startsWith "/" then part
  else if path.isEmpty || path.endsWith "/" then path ++ part
  else path ++ "/" ++ part

def joinAll (path : String) (parts : List String) : String := parts.foldl join path

/-- The characters behind the last slash. -/
def baseChars (cs : List Char) : List Char := (cs.reverse.takeWhile (· != '/')).reverse

def baseName (path : String) : String := String.ofList (baseChars path.toList)

/-- What stands before the base name, without the slashes between them unless there is nothing else. -/
def directory (path : String) : String :=
  let head := (path.toList.reverse.dropWhile (· != '/')).reverse
  let trimmed := (head.reverse.dropWhile (· == '/')).reverse
  String.ofList (if trimmed.isEmpty then head else trimmed)

/-- A path as a directory and a name in it; slashes at the end belong to neither. -/
def parting (path : String) : String × String :=
  if (baseName path).isEmpty then (directory (directory path), baseName (directory path))
  else (directory path, baseName path)

/-- The last point of a base name and what follows it, if anything but points precedes it. -/
def extension (path : String) : String :=
  let base := baseChars path.toList
  let body := base.dropWhile (· == '.')
  let tail := (body.reverse.takeWhile (· != '.')).reverse
  if body.contains '.' then String.ofList ('.' :: tail) else ""

/-- The names on a path, without empty ones and single points. -/
def names (path : String) : List String :=
  (path.splitOn "/").filter fun name => !name.isEmpty && name != "."

/-- Names after taking out every pair of a name and a following double point. -/
def resolveNames (absolute : Bool) (names : List String) : List String :=
  (names.foldl (fun done name =>
    if name == ".." then
      match done with
      | [] => if absolute then [] else [".."]
      | last :: rest => if last == ".." then ".." :: done else rest
    else name :: done) []).reverse

/-- The shortest spelling of a path, found from its text alone. -/
def normalize (path : String) : String :=
  let cs := path.toList
  let root :=
    if !path.startsWith "/" then ""
    else if path.startsWith "//" && !path.startsWith "///" then "//" else "/"
  let body := "/".intercalate (resolveNames (!root.isEmpty) (names path))
  if cs.isEmpty then "." else if (root ++ body).isEmpty then "." else root ++ body

end ClassAtlas.Path
