/-! The closed vocabularies of a class diagram and the words that stand for them in documents. Reading
a word and writing it back gives the same word, and each meaning has exactly one word. -/

namespace ClassAtlas

inductive ClassifierKind where
  | «class»
  | interface
  | enumeration
deriving Repr, DecidableEq, Inhabited

namespace ClassifierKind

def word : ClassifierKind → String
  | «class» => "class"
  | interface => "interface"
  | enumeration => "enum"

def ofWord? (s : String) : Option ClassifierKind :=
  [«class», interface, enumeration].find? fun k => k.word == s

@[simp]
theorem ofWord?_word (k : ClassifierKind) : ofWord? k.word = some k := by cases k <;> rfl

theorem word_of_ofWord? {s : String} {k : ClassifierKind} (h : ofWord? s = some k) : k.word = s := by
  simpa using List.find?_some h

end ClassifierKind

inductive Visibility where
  | «public»
  | «private»
  | «protected»
  | package
deriving Repr, DecidableEq, Inhabited

namespace Visibility

def word : Visibility → String
  | «public» => "public"
  | «private» => "private"
  | «protected» => "protected"
  | package => "package"

/-- The sign before a member in a diagram. -/
def sign : Visibility → String
  | «public» => "+"
  | «private» => "-"
  | «protected» => "#"
  | package => "~"

/-- The keyword before a member in source text; package access has none. -/
def keyword : Visibility → String
  | package => ""
  | v => v.word

def ofWord? (s : String) : Option Visibility :=
  [«public», «private», «protected», package].find? fun v => v.word == s

@[simp]
theorem ofWord?_word (v : Visibility) : ofWord? v.word = some v := by cases v <;> rfl

theorem word_of_ofWord? {s : String} {v : Visibility} (h : ofWord? s = some v) : v.word = s := by
  simpa using List.find?_some h

end Visibility

inductive RelationshipKind where
  | inheritance
  | implementation
  | association
  | aggregation
  | composition
  | dependency
deriving Repr, DecidableEq, Inhabited

namespace RelationshipKind

def word : RelationshipKind → String
  | inheritance => "inheritance"
  | implementation => "implementation"
  | association => "association"
  | aggregation => "aggregation"
  | composition => "composition"
  | dependency => "dependency"

def ofWord? (s : String) : Option RelationshipKind :=
  [inheritance, implementation, association, aggregation, composition, dependency].find?
    fun k => k.word == s

@[simp]
theorem ofWord?_word (k : RelationshipKind) : ofWord? k.word = some k := by cases k <;> rfl

theorem word_of_ofWord? {s : String} {k : RelationshipKind} (h : ofWord? s = some k) :
    k.word = s := by
  simpa using List.find?_some h

/-- The kinds whose ends may carry multiplicities. -/
def isStructural : RelationshipKind → Bool
  | association | aggregation | composition => true
  | inheritance | implementation | dependency => false

end RelationshipKind

inductive DashPattern where
  | solid
  | dashed
  | dotted
deriving Repr, DecidableEq, Inhabited

namespace DashPattern

def word : DashPattern → String
  | solid => "SOLID"
  | dashed => "DASHED"
  | dotted => "DOTTED"

def ofWord? (s : String) : Option DashPattern :=
  [solid, dashed, dotted].find? fun d => d.word == s

@[simp]
theorem ofWord?_word (d : DashPattern) : ofWord? d.word = some d := by cases d <;> rfl

theorem word_of_ofWord? {s : String} {d : DashPattern} (h : ofWord? s = some d) : d.word = s := by
  simpa using List.find?_some h

end DashPattern

end ClassAtlas
