import ClassAtlas.Schema.Complaint
import ClassAtlas.Value.Text

/-! Checking values part by part. A part that does not serve is replaced by a default and complained
of, so one run finds everything that is wrong, in the order in which the parts are asked for. -/

namespace ClassAtlas.Schema

/-- A checked part: its value, or a default in the place of a wrong one, and the complaints. -/
abbrev Checked (α : Type) := α × List Complaint

/-- A check of the value at a path. -/
abbrev Check (α : Type) := List Step → Value → Except (List Complaint) α

/-- Checks the value under a key; without it, what `absent` says happens. -/
def checkPart {α : Type} (fields : List (String × Value)) (path : List Step) (key : String)
    (default : α) (absent : List Complaint) (check : Check α) : Checked α :=
  match fields.lookup key with
  | none => (default, absent)
  | some v =>
    match check (path ++ [.key key]) v with
    | .ok a => (a, [])
    | .error complaints => (default, complaints)

/-- Checks the value under a key if it is there. -/
def checkField {α : Type} (fields : List (String × Value)) (path : List Step) (key : String)
    (default : α) (check : Check α) : Checked α := checkPart fields path key default [] check

/-- Checks the value under a key that must be there. -/
def checkNeeded {α : Type} (fields : List (String × Value)) (path : List Step) (key : String)
    (default : α) (check : Check α) : Checked α :=
  checkPart fields path key default [⟨.presence, path ++ [.key key]⟩] check

/-- The part if nothing is wrong. -/
def settle {α : Type} (checked : Checked α) : Except (List Complaint) α :=
  if checked.2.isEmpty then .ok checked.1 else .error checked.2

def textAt : Check String := fun path v =>
  match v with
  | .str s => .ok s
  | _ => .error [⟨.text, path⟩]

/-- A text that is not empty. -/
def someTextAt : Check String := fun path v =>
  match v with
  | .str s => if s.isEmpty then .error [⟨.textOfOneOrMore, path⟩] else .ok s
  | _ => .error [⟨.text, path⟩]

/-- A text or null. -/
def optionalTextAt : Check (Option String) := fun path v =>
  match v with
  | .null => .ok none
  | .str s => .ok (some s)
  | _ => .error [⟨.text, path⟩]

/-- All items of a list; each is checked at its place. -/
def itemsAt {α : Type} (check : Check α) : Check (List α) := fun path v =>
  match v with
  | .list items =>
    let results := items.zipIdx.map fun (item, i) => check (path ++ [Step.place i]) item
    let wrong := results.flatMap fun
      | .ok _ => []
      | .error complaints => complaints
    if wrong.isEmpty then
      .ok (results.filterMap fun
        | .ok a => some a
        | .error _ => none)
    else .error wrong
  | _ => .error [⟨.listOfParts, path⟩]

def textsAt : Check (List String) := itemsAt textAt

def numberAt : Check Float := fun path v =>
  match v with
  | .float x => .ok x
  | .int n =>
    match Number.floatOfInt? n with
    | some x => .ok x
    | none => .error [⟨.number, path⟩]
  | .bool b => .ok (if b then 1.0 else 0.0)
  | .str s =>
    match if s.toList.all fun c => c.toNat < 128 then Number.floatOfText? s else none with
    | some x => .ok x
    | none => .error [⟨.numeral, path⟩]
  | _ => .error [⟨.number, path⟩]

/-- Words for a truth value, in any case. -/
def truthOfWord? (s : String) : Option Bool :=
  let word := String.ofList (s.toList.map Char.toLower)
  if ["1", "true", "yes", "on", "t", "y"].contains word then some true
  else if ["0", "false", "no", "off", "f", "n"].contains word then some false
  else none

/-- The truth value of zero and one. -/
def truthOfInt? (n : Int) : Option Bool :=
  if n == 0 then some false else if n == 1 then some true else none

def truthAt : Check Bool := fun path v =>
  let word (found : Option Bool) : Except (List Complaint) Bool :=
    match found with
    | some b => .ok b
    | none => .error [⟨.truthWord, path⟩]
  match v with
  | .bool b => .ok b
  | .int n => word (truthOfInt? n)
  | .float x =>
    match (Number.Exact.ofFloat? x).bind (·.toInt?) with
    | some n => word (truthOfInt? n)
    | none => .error [⟨.truth, path⟩]
  | .str s => word (truthOfWord? s)
  | _ => .error [⟨.truth, path⟩]

def objectAt (demand : Demand) : Check (List (String × Value)) := fun path v =>
  match v with
  | .object fields => .ok fields
  | _ => .error [⟨demand, path⟩]

/-- The group under a key; an absent group has its defaults. -/
def checkGroup {α : Type} (fields : List (String × Value)) (path : List Step) (key : String)
    (default : α) (check : List Step → List (String × Value) → Checked α) : Checked α :=
  match fields.lookup key with
  | none => (default, [])
  | some (.object inner) => check (path ++ [.key key]) inner
  | some _ => (default, [⟨.group, path ++ [.key key]⟩])

end ClassAtlas.Schema
