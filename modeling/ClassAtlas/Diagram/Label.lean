import ClassAtlas.Value.Text

/-! What fills the text slots of a diagram. A diagram built from source holds texts; one read from a
document holds whatever values stood there, and only later use decides whether they serve. Both kinds
of filling can be compared, tested for being empty, and shown in messages. -/

namespace ClassAtlas

class Label (τ : Type) where
  same : τ → τ → Bool
  ofText : String → τ
  /-- The text of the filling inside a message. -/
  shown : τ → String
  /-- Whether the filling counts as absent. -/
  isVoid : τ → Bool

/-- Fillings are compared as labels, unless their type has a comparison of its own. -/
instance (priority := low) {τ : Type} [Label τ] : BEq τ where
  beq := Label.same

instance : Label String where
  same := (· == ·)
  ofText s := s
  shown s := s
  isVoid := String.isEmpty

/-- The number that is unequal to itself. -/
def Value.isNaN : Value → Bool
  | .float x => x != x
  | _ => false

/-- Whether what was entered under one value is found under another: equal values find each other, and
NaN, though equal to nothing, finds itself. -/
def Value.finds (v w : Value) : Bool := v.same w || (v.isNaN && w.isNaN)

instance : Label Value where
  same := Value.finds
  ofText := .str
  shown := Value.shown
  isVoid v := !v.isTruthy

/-- The text of a filling; a void one has none. -/
def Label.present {τ : Type} [Label τ] (v : τ) : String := if isVoid v then "" else shown v

@[simp] theorem Label.shown_string (s : String) : Label.shown s = s := rfl

@[simp] theorem Label.isVoid_string (s : String) : Label.isVoid s = s.isEmpty := rfl

@[simp] theorem Label.ofText_string (s : String) : (Label.ofText s : String) = s := rfl

@[simp] theorem Label.present_string (s : String) : Label.present s = s := by
  unfold present
  split
  · rename_i hvoid
    exact (String.isEmpty_iff.mp hvoid).symm
  · rfl

@[simp] theorem Label.map_present_string (texts : List String) : texts.map present = texts := by
  rw [List.map_congr_left fun s _ => present_string s, List.map_id']

@[simp] theorem Label.map_shown_string (texts : List String) : texts.map shown = texts :=
  List.map_id' texts

end ClassAtlas
