import ClassAtlas.Java.Vocabulary
import ClassAtlas.Text.WordChar

/-! The names that a type expression refers to. A name is a run of word characters that starts with an
ASCII letter, an underscore or a dollar sign, taken as long as it goes, with further such runs behind
single points. -/

namespace ClassAtlas.Java.TypeNames

def isStart (c : Char) : Bool := c.isAlpha || c == '_' || c == '$'

def isPart (c : Char) : Bool := Text.isWordChar c || c == '$'

/-- Whether another run follows a point. -/
def continues : List Char → Bool
  | c :: _ => isStart c
  | [] => false

/-- Splits a text behind the start of a name into the rest of the name and what follows. -/
def restOfName : List Char → List Char × List Char
  | [] => ([], [])
  | c :: rest =>
    if isPart c || (c == '.' && continues rest) then
      ((c :: (restOfName rest).1), (restOfName rest).2)
    else ([], c :: rest)

theorem restOfName_append (cs : List Char) : (restOfName cs).1 ++ (restOfName cs).2 = cs := by
  induction cs with
  | nil => rfl
  | cons c rest ih =>
    simp only [restOfName]
    split
    · simp [ih]
    · rfl

theorem length_restOfName_le (cs : List Char) : (restOfName cs).2.length ≤ cs.length := by
  have h := congrArg List.length (restOfName_append cs)
  simp only [List.length_append] at h
  omega

/-- All names in a text, in order. -/
def scan : List Char → List (List Char)
  | [] => []
  | c :: rest =>
    if isStart c then (c :: (restOfName rest).1) :: scan (restOfName rest).2 else scan rest
termination_by cs => cs.length
decreasing_by
  all_goals
    have := length_restOfName_le rest
    simp only [List.length_cons]
    omega

/-- Names that stand for no classifier. -/
def isReserved (name : String) : Bool :=
  primitives.contains name || name == voidWord || typeWords.contains name

/-- The items of a list at their first occurrence. -/
def distinct {α : Type} [BEq α] (xs : List α) : List α :=
  (xs.foldl (fun seen x => if seen.contains x then seen else x :: seen) []).reverse

/-- The names a type expression refers to, each once, in order of first appearance. -/
def ofText (s : String) : List String :=
  distinct (((scan s.toList).map String.ofList).filter fun name => !isReserved name)

/-- An absent type refers to nothing. -/
def ofText? (s? : Option String) : List String := (s?.map ofText).getD []

end ClassAtlas.Java.TypeNames
