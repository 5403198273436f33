import ClassAtlas.Value.Text

/-! Trees of files and where paths lead in them. A path is walked name by name from the top; a link
puts the names of its target in its own place, and only so many links are followed. -/

namespace ClassAtlas.Files

/-- What a file holds: a text that is stored as UTF-8, or any bytes. -/
inductive Content where
  | text (s : String)
  | bytes (bs : List UInt8)
deriving Repr, DecidableEq

inductive Node where
  | file (content : Content)
  | directory (entries : List (String × Node))
  | link (target : String)

/-- Why the system refuses an access. -/
inductive SystemError where
  | missing
  | failed
  | denied
  | taken
  | notDirectory
  | isDirectory
  | noSpace
  | nameTooLong
  | tooManyLinks
deriving Repr, DecidableEq

namespace SystemError

def number : SystemError → Nat
  | missing => 2
  | failed => 5
  | denied => 13
  | taken => 17
  | notDirectory => 20
  | isDirectory => 21
  | noSpace => 28
  | nameTooLong => 36
  | tooManyLinks => 40

def title : SystemError → String
  | missing => "No such file or directory"
  | failed => "Input/output error"
  | denied => "Permission denied"
  | taken => "File exists"
  | notDirectory => "Not a directory"
  | isDirectory => "Is a directory"
  | noSpace => "No space left on device"
  | nameTooLong => "File name too long"
  | tooManyLinks => "Too many levels of symbolic links"

end SystemError

/-- A failed access to a path. A path that holds a null character names nothing and never gets as far
as the system, and neither does one for which more calls had to nest than may. -/
inductive AccessError where
  | system (error : SystemError) (path : String)
  | nullCharacter
  | tooNested
deriving Repr, DecidableEq

def AccessError.message : AccessError → String
  | system error path =>
    "[Errno " ++ toString error.number ++ "] " ++ error.title ++ ": " ++ Value.quotedText path
  | nullCharacter => "embedded null byte"
  | tooNested => "maximum recursion depth exceeded"

namespace Node

/-- The node at a place, which is a list of names from here. -/
def at? : Node → List String → Option Node
  | n, [] => some n
  | directory entries, name :: rest => (entries.lookup name).bind fun n => n.at? rest
  | _, _ :: _ => none

/-- Puts a node under a name: an old entry keeps its place, a new one goes to the end. -/
def setEntry (name : String) (n : Node) : List (String × Node) → List (String × Node)
  | [] => [(name, n)]
  | (k, old) :: rest => if k == name then (k, n) :: rest else (k, old) :: setEntry name n rest

/-- Puts a node at a place whose directory is there. -/
def put (n : Node) : Node → List String → Node
  | _, [] => n
  | directory entries, name :: rest =>
    match entries.lookup name, rest with
    | some old, _ => directory (setEntry name (put n old rest) entries)
    | none, [] => directory (entries ++ [(name, n)])
    | none, _ => directory entries
  | other, _ :: _ => other

/-- Puts a node at a place and makes the directories that lead there. A directory that is there
already stays when an empty one is to be put. -/
def grow (n : Node) : Node → List String → Node
  | old, [] =>
    match n, old with
    | directory [], directory entries => directory entries
    | _, _ => n
  | directory entries, name :: rest =>
    directory (setEntry name (grow n ((entries.lookup name).getD (directory [])) rest) entries)
  | other, _ :: _ => other

end Node

/-- Where a path leads: to a node, or to a free place in a directory. -/
inductive Arrival where
  | present (place : List String) (node : Node)
  | free (place : List String)

/-- No name is longer than this many bytes. -/
def longestName : Nat := 255

/-- A link is followed only so often on one path. -/
def mostLinks : Nat := 40

/-- Walks names from a directory at a place. A link at the very end is followed only if `follow` holds;
`jump` goes on behind a link. -/
def walk (top : Node) (follow : Bool)
    (jump : List String → List String → Except SystemError Arrival) :
    List String → List String → Except SystemError Arrival
  | place, [] =>
    match top.at? place with
    | some n => .ok (.present place n)
    | none => .error .missing
  | place, name :: rest =>
    if name.isEmpty || name == "." then walk top follow jump place rest
    else if name == ".." then walk top follow jump place.dropLast rest
    else if longestName < name.utf8ByteSize then .error .nameTooLong
    else
      let here := place ++ [name]
      match top.at? here with
      | some (.directory _) => walk top follow jump here rest
      | some (.file content) =>
        if rest.isEmpty then .ok (.present here (.file content)) else .error .notDirectory
      | some (.link target) =>
        if rest.isEmpty && !follow then .ok (.present here (.link target))
        else jump (if target.startsWith "/" then [] else place) (target.splitOn "/" ++ rest)
      | none => if rest.all String.isEmpty then .ok (.free here) else .error .missing

/-- Walks names with so many links still to be followed. -/
def walkLinks (top : Node) (follow : Bool) :
    Nat → List String → List String → Except SystemError Arrival
  | 0 => walk top follow fun _ _ => .error .tooManyLinks
  | n + 1 => walk top follow (walkLinks top follow n)

/-- Where a path leads from the top, however long it is. -/
def locate (top : Node) (follow : Bool) (path : String) : Except AccessError Arrival :=
  if path.toList.contains '\x00' then .error .nullCharacter
  else if path.isEmpty then .error (.system .missing path)
  else (walkLinks top follow mostLinks [] (path.splitOn "/")).mapError fun e => .system e path

end ClassAtlas.Files
