import ClassAtlas.Proofs.SuccessfulReading
import ClassAtlas.Document.Write

/-! # Settled diagrams

Reading converts: null in an optional slot becomes nothing, a void text becomes a default, a missing id
is drawn. What has been through this comes out unchanged the next time. Such diagrams are called
settled. Piece by piece, a reading leaves only settled things behind, and a settled thing that is
written is found by the next reading as it was. -/

namespace ClassAtlas.Document

/-! ## Slots -/

/-- An optional slot in which no null has to become nothing. -/
def Slot (v? : Option Value) : Prop := v? ≠ some .null

/-- A slot in which no void value has to become a default. -/
def Kept (default v : Value) : Prop := v.isTruthy = true ∨ v = default

section Slots

variable {fields : List (String × Value)} {key : String} {v default : Value} {v? : Option Value}

theorem slot_optional : Slot (optional fields key) := by
  unfold Slot optional
  cases fields.lookup key with
  | none => exact nofun
  | some v => cases v <;> exact nofun

theorem optional_of_slot (h : Slot v?) (hk : fields.lookup key = some (ofOption v?)) :
    optional fields key = v? := by
  unfold optional
  rw [hk]
  cases v? with
  | none => rfl
  | some v =>
    cases v with
    | null => exact absurd rfl h
    | _ => rfl

theorem kept_presentOr : Kept default (presentOr fields key default) := by
  unfold presentOr
  split
  · split
    · rename_i hv
      exact .inl hv
    · exact .inr rfl
  · exact .inr rfl

theorem presentOr_of_kept (h : Kept default v) (hk : fields.lookup key = some v) :
    presentOr fields key default = v := by
  unfold presentOr
  rw [hk]
  show (if v.isTruthy = true then v else default) = v
  split
  · rfl
  · rename_i hv
    rcases h with h | h
    · exact absurd h hv
    · exact h.symm

end Slots

section Parts

variable {α : Type} {reader : Value → Except Fault α} {xs : List α}

theorem Parts.of_written {write : α → Value} (h : ∀ x ∈ xs, reader (write x) = .ok x) :
    Parts reader (.list (xs.map write)) xs := by
  refine ⟨_, rfl, List.forall₂_map_left_iff.mpr (List.forall₂_same.mpr h)⟩

theorem Parts.forall_mem {v : Value} {p : α → Prop} (h : Parts reader v xs)
    (hp : ∀ part x, reader part = .ok x → p x) : ∀ x ∈ xs, p x := by
  obtain ⟨parts, -, hparts⟩ := h
  intro x hx
  induction hparts with
  | nil => cases hx
  | cons hread _ ih =>
    rcases List.mem_cons.mp hx with rfl | hx
    · exact hp _ _ hread
    · exact ih hx

end Parts

/-! ## Members -/

theorem wordOf_of_ofWord? {α : Type} {ofWord? : String → Option α} {vocabulary : Vocabulary}
    {word : String} {a : α} (h : ofWord? word = some a) :
    wordOf ofWord? vocabulary (.str word) = .ok a := by
  unfold wordOf Value.text?
  rw [Option.bind_some, h]

theorem readParameter_write {p : ParameterOf Value} (h : Slot p.defaultValue) :
    readParameter (writeParameter p) = .ok p :=
  readParameter_eq_ok.mpr ⟨_, rfl, rfl, rfl, optional_of_slot h rfl⟩

theorem slot_of_readParameter {v : Value} {p : ParameterOf Value} (h : readParameter v = .ok p) :
    Slot p.defaultValue := by
  obtain ⟨fields, -, -, -, hdefault⟩ := readParameter_eq_ok.mp h
  rw [← hdefault]
  exact slot_optional

theorem readField_write {f : FieldOf Value} (h : Slot f.defaultValue) :
    readField (writeField f) = .ok f :=
  readField_eq_ok.mpr ⟨_, rfl, {
    name := rfl
    typeName := rfl
    visibility := wordOf_of_ofWord? (Visibility.ofWord?_word f.visibility)
    defaultValue := optional_of_slot h rfl
    isStatic := rfl
    isFinal := rfl }⟩

theorem slot_of_readField {v : Value} {f : FieldOf Value} (h : readField v = .ok f) :
    Slot f.defaultValue := by
  obtain ⟨fields, -, shown⟩ := readField_eq_ok.mp h
  rw [← shown.defaultValue]
  exact slot_optional

/-- An operation whose slots and whose parameters' slots hold no null. -/
def OperationSettled (op : OperationOf Value) : Prop :=
  Slot op.returnType ∧ ∀ p ∈ op.parameters, Slot p.defaultValue

theorem readOperation_write {op : OperationOf Value} (h : OperationSettled op) :
    readOperation (writeOperation op) = .ok op :=
  readOperation_eq_ok.mpr ⟨_, rfl, {
    name := rfl
    visibility := wordOf_of_ofWord? (Visibility.ofWord?_word op.visibility)
    parameters := .of_written fun p hp => readParameter_write (h.2 p hp)
    returnType := optional_of_slot h.1 rfl
    isStatic := rfl
    isAbstract := rfl
    isFinal := rfl }⟩

theorem settled_of_readOperation {v : Value} {op : OperationOf Value} (h : readOperation v = .ok op) :
    OperationSettled op := by
  obtain ⟨fields, -, shown⟩ := readOperation_eq_ok.mp h
  constructor
  · rw [← shown.returnType]
    exact slot_optional
  · exact shown.parameters.forall_mem fun _ _ => slot_of_readParameter

/-! ## Elements -/

/-- A classifier that comes out of reading as it is, but for its key. -/
structure ClassifierSettled (c : ClassifierOf Value) : Prop where
  id : c.id.isTruthy = true
  hashed : asKey c.id = .ok c.id
  namespaceName : Kept (.str "") c.namespaceName
  members : ∀ f ∈ c.fields, Slot f.defaultValue
  operations : ∀ op ∈ c.operations, OperationSettled op
  declaredSuperclass : Slot c.declaredSuperclass

theorem ClassifierSettled.shown {c : ClassifierOf Value} (h : ClassifierSettled c) :
    ClassifierShown (("element_type", .str "classifier") :: classifierFields c)
      { c with key := 0 } where
  key := rfl
  id := presentOr_of_kept (.inl h.id) rfl
  name := rfl
  namespaceName := presentOr_of_kept h.namespaceName rfl
  kind := wordOf_of_ofWord? (ClassifierKind.ofWord?_word c.kind)
  isAbstract := rfl
  members := .of_written fun f hf => readField_write (h.members f hf)
  operations := .of_written fun op hop => readOperation_write (h.operations op hop)
  literals := congrArg Except.ok (List.map_id _)
  declaredSuperclass := optional_of_slot h.declaredSuperclass rfl
  declaredInterfaces := congrArg Except.ok (List.map_id _)
  x := rfl
  y := rfl
  width := rfl
  height := rfl
  style := rfl

theorem str_isTruthy {s : String} : (Value.str s).isTruthy = true ↔ s ≠ "" := by
  simp [Value.isTruthy]

theorem isVoid_value {v : Value} : Label.isVoid v = !v.isTruthy := rfl

/-- An id that was given is kept, and one that was drawn is not void. -/
theorem idOr_isTruthy {s : Supply} {given : Value} : (s.idOr given).1.isTruthy = true := by
  unfold Supply.idOr
  rw [isVoid_value]
  cases h : given.isTruthy with
  | true => exact h
  | false =>
    show (Value.str ("id-" ++ toString (s.drawn + 1))).isTruthy = true
    exact str_isTruthy.mpr (by simp)

theorem enrolClassifier_of_isTruthy {s : Supply} {c : ClassifierOf Value} (h : c.id.isTruthy = true) :
    s.enrolClassifier c = ({ c with key := s.born }, { s with born := s.born + 1 }) := by
  unfold Supply.enrolClassifier Supply.idOr
  rw [isVoid_value, h]
  rfl

/-- A classifier that was read and has got an id is settled. -/
theorem ClassifierShown.settled {fields : List (String × Value)} {c c' : ClassifierOf Value}
    {s s' : Supply} (h : ClassifierShown fields c) (enrolled : s.enrolClassifier c = (c', s'))
    (hashed : asKey c'.id = .ok c'.id) : ClassifierSettled c' := by
  obtain rfl : (s.enrolClassifier c).1 = c' := congrArg Prod.fst enrolled
  refine ⟨idOr_isTruthy, hashed, ?_, ?_, ?_, ?_⟩
  · show Kept (.str "") c.namespaceName
    rw [← h.namespaceName]
    exact kept_presentOr
  · exact h.members.forall_mem fun _ _ => slot_of_readField
  · exact h.operations.forall_mem fun _ _ => settled_of_readOperation
  · show Slot c.declaredSuperclass
    rw [← h.declaredSuperclass]
    exact slot_optional

/-- A relationship that comes out of reading as it is, but for its key and its ends. -/
structure RelationshipSettled (r : RelationshipOf Value) : Prop where
  id : r.id.isTruthy = true
  name : r.name.isTruthy = true
  sourceRole : Slot r.sourceRole
  targetRole : Slot r.targetRole
  sourceMultiplicity : Slot r.sourceMultiplicity
  targetMultiplicity : Slot r.targetMultiplicity
  sourceTooltip : Slot r.sourceTooltip
  targetTooltip : Slot r.targetTooltip

theorem readLineStyle_write (l : LineStyle) : readLineStyle (writeLineStyle l) = .ok l := by
  have hdash : wordOf DashPattern.ofWord? .dashPattern (.str l.dash.word) = .ok l.dash :=
    wordOf_of_ofWord? (DashPattern.ofWord?_word l.dash)
  exact bind_eq_ok.mpr ⟨_, rfl, bind_eq_ok.mpr ⟨l.width, rfl, bind_eq_ok.mpr ⟨l.dash, hdash, rfl⟩⟩⟩

theorem RelationshipSettled.shown {d : DiagramOf Value} {r : RelationshipOf Value}
    {a b : ClassifierOf Value} (h : RelationshipSettled r)
    (source : asKey r.source.id = .ok r.source.id) (ha : d.classifierById? r.source.id = some a)
    (target : asKey r.target.id = .ok r.target.id) (hb : d.classifierById? r.target.id = some b) :
    RelationshipShown d (("element_type", .str "relationship") :: relationshipFields r)
      { r with key := 0, source := a.toEndpoint, target := b.toEndpoint } where
  key := rfl
  id := presentOr_of_kept (.inl h.id) rfl
  name := presentOr_of_kept (.inl h.name) rfl
  source := ⟨r.source.id, a, rfl, source, ha, rfl⟩
  target := ⟨r.target.id, b, rfl, target, hb, rfl⟩
  kind := ⟨_, rfl, wordOf_of_ofWord? (RelationshipKind.ofWord?_word r.kind)⟩
  sourceRole := optional_of_slot h.sourceRole rfl
  targetRole := optional_of_slot h.targetRole rfl
  sourceMultiplicity := optional_of_slot h.sourceMultiplicity rfl
  targetMultiplicity := optional_of_slot h.targetMultiplicity rfl
  sourceTooltip := optional_of_slot h.sourceTooltip rfl
  targetTooltip := optional_of_slot h.targetTooltip rfl
  lineStyle := readLineStyle_write r.lineStyle
  controlPoints := .of_written fun _ _ => rfl

theorem defaultName_isTruthy {a b : EndpointOf Value} :
    (RelationshipOf.defaultName a b : Value).isTruthy = true :=
  str_isTruthy.mpr (by simp)

/-- A relationship that was read and has got an id and a name is settled. -/
theorem RelationshipShown.settled {d : DiagramOf Value} {fields : List (String × Value)}
    {r r' : RelationshipOf Value} {s s' : Supply} (h : RelationshipShown d fields r)
    (enrolled : s.enrolRelationship r = (r', s')) : RelationshipSettled r' := by
  obtain rfl : (s.enrolRelationship r).1 = r' := congrArg Prod.fst enrolled
  have hname : (s.enrolRelationship r).1.name.isTruthy = true := by
    show (if Label.isVoid r.name then RelationshipOf.defaultName r.source r.target
      else r.name).isTruthy = true
    rw [isVoid_value]
    cases hn : r.name.isTruthy with
    | true => exact hn
    | false => exact defaultName_isTruthy
  refine ⟨idOr_isTruthy, hname, ?_, ?_, ?_, ?_, ?_, ?_⟩
  · exact h.sourceRole ▸ slot_optional
  · exact h.targetRole ▸ slot_optional
  · exact h.sourceMultiplicity ▸ slot_optional
  · exact h.targetMultiplicity ▸ slot_optional
  · exact h.sourceTooltip ▸ slot_optional
  · exact h.targetTooltip ▸ slot_optional

end ClassAtlas.Document
