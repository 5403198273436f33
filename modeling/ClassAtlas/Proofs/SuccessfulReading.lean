import ClassAtlas.Document.Read
import Mathlib.Data.List.Forall2

/-! # What a successful reading saw

Reading takes what it needs and stops at the first thing that does not serve. So where it gives a
result, every step before gave one too. For each reader one statement says which values it found in a
document; it serves in both directions, to follow a reading that was made and to make one. -/

namespace ClassAtlas.Document

/-! ## Steps -/

section Except

variable {ε α β : Type} {x : Except ε α} {f : α → Except ε β} {a : α} {b : β}

@[simp] theorem ok_bind : ((Except.ok a : Except ε α) >>= f) = f a := rfl

theorem bind_eq_ok : (x >>= f) = .ok b ↔ ∃ a, x = .ok a ∧ f a = .ok b := by
  cases x with
  | error e =>
    constructor
    · intro h
      cases h
    · intro hgiven
      obtain ⟨a, h, -⟩ := hgiven
      cases h
  | ok a =>
    constructor
    · exact fun h => ⟨a, rfl, h⟩
    · intro hgiven
      obtain ⟨a', h, hf⟩ := hgiven
      cases h
      exact hf

theorem mapM_eq_ok {xs : List α} {ys : List β} :
    xs.mapM f = .ok ys ↔ List.Forall₂ (fun x y => f x = .ok y) xs ys := by
  induction xs generalizing ys with
  | nil =>
    rw [List.mapM_nil, List.forall₂_nil_left_iff]
    constructor
    · intro h
      cases h
      rfl
    · rintro rfl
      rfl
  | cons x xs ih =>
    rw [List.mapM_cons, bind_eq_ok]
    constructor
    · intro hgiven
      obtain ⟨y, hy, h⟩ := hgiven
      obtain ⟨ys, hys, h⟩ := bind_eq_ok.mp h
      cases h
      exact .cons hy (ih.mp hys)
    · intro h
      cases h with
      | cons hy hys => exact ⟨_, hy, bind_eq_ok.mpr ⟨_, ih.mpr hys, rfl⟩⟩

end Except

/-- Work that may fail gives this result, and leaves this of what it works on. -/
def Makes {ε σ α : Type} (work : ExceptT ε (StateM σ) α) (s : σ) (a : α) (s' : σ) : Prop :=
  work.run.run s = (.ok a, s')

section Makes

variable {ε σ α β : Type} {s s' : σ} {a : α} {b : β}

/-- What comes next runs on what is left, if there is a result. -/
theorem run_bind_eq {work : ExceptT ε (StateM σ) α} {next : α → ExceptT ε (StateM σ) β} :
    (work >>= next).run.run s = match work.run.run s with
      | (.ok a, t) => (next a).run.run t
      | (.error e, t) => (.error e, t) := by
  show (work.run >>= ExceptT.bindCont next).run s = _
  rw [StateT.run_bind]
  rcases work.run.run s with ⟨a | a, t⟩ <;> rfl

theorem makes_bind {work : ExceptT ε (StateM σ) α} {next : α → ExceptT ε (StateM σ) β} :
    Makes (work >>= next) s b s' ↔ ∃ a t, Makes work s a t ∧ Makes (next a) t b s' := by
  rw [Makes, run_bind_eq]
  rcases hwork : work.run.run s with ⟨e | a, t⟩
  · constructor
    · intro h
      cases h
    · intro hgiven
      obtain ⟨a, t', h, -⟩ := hgiven
      rw [Makes, hwork] at h
      cases h
  · constructor
    · exact fun h => ⟨a, t, hwork, h⟩
    · intro hgiven
      obtain ⟨a', t', h, hnext⟩ := hgiven
      rw [Makes, hwork] at h
      cases h
      exact hnext

theorem makes_lift {x : Except ε α} :
    Makes (liftM x : ExceptT ε (StateM σ) α) s a s' ↔ x = .ok a ∧ s' = s := by
  cases x with
  | error e =>
    constructor
    · intro h
      cases h
    · intro hgiven
      obtain ⟨h, -⟩ := hgiven
      cases h
  | ok a' =>
    constructor
    · intro h
      cases h
      exact ⟨rfl, rfl⟩
    · intro hgiven
      obtain ⟨h, rfl⟩ := hgiven
      cases h
      rfl

theorem makes_pure {a' : α} :
    Makes (pure a' : ExceptT ε (StateM σ) α) s a s' ↔ a' = a ∧ s' = s := by
  constructor
  · intro h
    cases h
    exact ⟨rfl, rfl⟩
  · intro hgiven
    obtain ⟨rfl, rfl⟩ := hgiven
    rfl

theorem makes_discard {x : Except ε α} {u : PUnit} :
    Makes (discard (liftM x : ExceptT ε (StateM σ) α)) s u s' ↔ (∃ a, x = .ok a) ∧ s' = s := by
  cases x with
  | error e =>
    constructor
    · intro h
      cases h
    · intro hgiven
      obtain ⟨⟨a, h⟩, -⟩ := hgiven
      cases h
  | ok a =>
    constructor
    · intro h
      cases h
      exact ⟨⟨a, rfl⟩, rfl⟩
    · intro hgiven
      obtain ⟨-, rfl⟩ := hgiven
      rfl

theorem makes_modifyGet {f : σ → α × σ} :
    Makes (modifyGet f : ExceptT ε (StateM σ) α) s a s' ↔ f s = (a, s') := by
  constructor
  · intro h
    cases h
    rfl
  · intro h
    show (Except.ok (f s).1, (f s).2) = _
    rw [h]

end Makes

/-! ## Members -/

section Members

variable {v x : Value} {fields : List (String × Value)} {key : String}

theorem fieldsOf_eq_ok : fieldsOf v = .ok fields ↔ v = .object fields := by
  cases v <;> simp [fieldsOf]

theorem require_object : require (.object fields) key = .ok x ↔ fields.lookup key = some x := by
  rw [require]
  cases fields.lookup key <;> simp

/-- The parts of a value, and what they were read as. -/
def Parts {α : Type} (reader : Value → Except Fault α) (v : Value) (xs : List α) : Prop :=
  ∃ parts, partsOf v = .ok parts ∧ List.Forall₂ (fun part x => reader part = .ok x) parts xs

theorem readParameter_eq_ok {p : ParameterOf Value} : readParameter v = .ok p ↔
    ∃ fields, v = .object fields ∧ fields.lookup "name" = some p.name ∧
      fields.lookup "type_name" = some p.typeName ∧
      optional fields "default_value" = p.defaultValue := by
  constructor
  · intro h
    obtain ⟨name, hname, h⟩ := bind_eq_ok.mp h
    obtain ⟨typeName, htype, h⟩ := bind_eq_ok.mp h
    obtain ⟨fields, hfields, h⟩ := bind_eq_ok.mp h
    cases h
    obtain rfl := fieldsOf_eq_ok.mp hfields
    exact ⟨fields, rfl, require_object.mp hname, require_object.mp htype, rfl⟩
  · intro hgiven
    obtain ⟨fields, rfl, hname, htype, hdefault⟩ := hgiven
    simp only [readParameter, fieldsOf, require_object.mpr hname, require_object.mpr htype, ok_bind,
      hdefault]
    rfl

/-- What reading a field finds. -/
structure FieldShown (fields : List (String × Value)) (f : FieldOf Value) : Prop where
  name : fields.lookup "name" = some f.name
  typeName : fields.lookup "type_name" = some f.typeName
  visibility : wordOf Visibility.ofWord? .visibility
    (valueOr fields "visibility" (.str "private")) = .ok f.visibility
  defaultValue : optional fields "default_value" = f.defaultValue
  isStatic : flag fields "is_static" false = f.isStatic
  isFinal : flag fields "is_final" false = f.isFinal

theorem readField_eq_ok {f : FieldOf Value} :
    readField v = .ok f ↔ ∃ fields, v = .object fields ∧ FieldShown fields f := by
  constructor
  · intro h
    obtain ⟨name, hname, h⟩ := bind_eq_ok.mp h
    obtain ⟨typeName, htype, h⟩ := bind_eq_ok.mp h
    obtain ⟨fields, hfields, h⟩ := bind_eq_ok.mp h
    obtain ⟨visibility, hvisibility, h⟩ := bind_eq_ok.mp h
    cases h
    obtain rfl := fieldsOf_eq_ok.mp hfields
    exact ⟨fields, rfl, require_object.mp hname, require_object.mp htype, hvisibility, rfl, rfl, rfl⟩
  · intro hgiven
    obtain ⟨fields, rfl, h⟩ := hgiven
    simp only [readField, fieldsOf, require_object.mpr h.name, require_object.mpr h.typeName, ok_bind,
      h.visibility, h.defaultValue, h.isStatic, h.isFinal]
    rfl

/-- What reading an operation finds. -/
structure OperationShown (fields : List (String × Value)) (op : OperationOf Value) : Prop where
  name : fields.lookup "name" = some op.name
  visibility : wordOf Visibility.ofWord? .visibility
    (valueOr fields "visibility" (.str "public")) = .ok op.visibility
  parameters : Parts readParameter (valueOr fields "parameters" (.list [])) op.parameters
  returnType : optional fields "return_type" = op.returnType
  isStatic : flag fields "is_static" false = op.isStatic
  isAbstract : flag fields "is_abstract" false = op.isAbstract
  isFinal : flag fields "is_final" false = op.isFinal

theorem readOperation_eq_ok {op : OperationOf Value} :
    readOperation v = .ok op ↔ ∃ fields, v = .object fields ∧ OperationShown fields op := by
  constructor
  · intro h
    obtain ⟨name, hname, h⟩ := bind_eq_ok.mp h
    obtain ⟨fields, hfields, h⟩ := bind_eq_ok.mp h
    obtain ⟨visibility, hvisibility, h⟩ := bind_eq_ok.mp h
    obtain ⟨parts, hparts, h⟩ := bind_eq_ok.mp h
    obtain ⟨parameters, hparameters, h⟩ := bind_eq_ok.mp h
    cases h
    obtain rfl := fieldsOf_eq_ok.mp hfields
    exact ⟨fields, rfl, require_object.mp hname, hvisibility,
      ⟨parts, hparts, mapM_eq_ok.mp hparameters⟩, rfl, rfl, rfl, rfl⟩
  · intro hgiven
    obtain ⟨fields, rfl, h⟩ := hgiven
    obtain ⟨parts, hparts, hparameters⟩ := h.parameters
    simp only [readOperation, fieldsOf, require_object.mpr h.name, ok_bind, h.visibility, hparts,
      mapM_eq_ok.mpr hparameters, h.returnType, h.isStatic, h.isAbstract, h.isFinal]
    rfl

end Members

/-! ## Elements -/

section Elements

variable {v : Value} {d d' : DiagramOf Value} {s s' : Supply}

/-- What reading a classifier finds. It has no key of its own yet. -/
structure ClassifierShown (fields : List (String × Value)) (c : ClassifierOf Value) : Prop where
  key : c.key = 0
  id : presentOr fields "id" .null = c.id
  name : fields.lookup "name" = some c.name
  namespaceName : presentOr fields "namespace" (.str "") = c.namespaceName
  kind : wordOf ClassifierKind.ofWord? .classifierKind
    (valueOr fields "kind" (.str "class")) = .ok c.kind
  isAbstract : flag fields "is_abstract" false = c.isAbstract
  members : Parts readField (valueOr fields "fields" (.list [])) c.fields
  operations : Parts readOperation (valueOr fields "operations" (.list [])) c.operations
  literals : partsOf (valueOr fields "literals" (.list [])) = .ok c.literals
  declaredSuperclass : optional fields "declared_superclass" = c.declaredSuperclass
  declaredInterfaces :
    partsOf (valueOr fields "declared_interfaces" (.list [])) = .ok c.declaredInterfaces
  x : realOf (valueOr fields "x" (.float 0.0)) = .ok c.box.x
  y : realOf (valueOr fields "y" (.float 0.0)) = .ok c.box.y
  width : realOf (valueOr fields "width" (.float 200.0)) = .ok c.box.width
  height : realOf (valueOr fields "height" (.float 150.0)) = .ok c.box.height
  style : readStyle (presentOr fields "style" (.object [])) = .ok c.style

theorem readClassifier_eq_ok {c : ClassifierOf Value} :
    readClassifier v = .ok c ↔ ∃ fields, v = .object fields ∧ ClassifierShown fields c := by
  constructor
  · intro h
    obtain ⟨fields, hfields, h⟩ := bind_eq_ok.mp h
    obtain ⟨name, hname, h⟩ := bind_eq_ok.mp h
    obtain ⟨kind, hkind, h⟩ := bind_eq_ok.mp h
    obtain ⟨parts, hparts, h⟩ := bind_eq_ok.mp h
    obtain ⟨members, hmembers, h⟩ := bind_eq_ok.mp h
    obtain ⟨parts', hparts', h⟩ := bind_eq_ok.mp h
    obtain ⟨operations, hoperations, h⟩ := bind_eq_ok.mp h
    obtain ⟨literals, hliterals, h⟩ := bind_eq_ok.mp h
    obtain ⟨interfaces, hinterfaces, h⟩ := bind_eq_ok.mp h
    obtain ⟨x, hx, h⟩ := bind_eq_ok.mp h
    obtain ⟨y, hy, h⟩ := bind_eq_ok.mp h
    obtain ⟨width, hwidth, h⟩ := bind_eq_ok.mp h
    obtain ⟨height, hheight, h⟩ := bind_eq_ok.mp h
    obtain ⟨style, hstyle, h⟩ := bind_eq_ok.mp h
    cases h
    obtain rfl := fieldsOf_eq_ok.mp hfields
    exact ⟨fields, rfl, rfl, rfl, require_object.mp hname, rfl, hkind, rfl,
      ⟨parts, hparts, mapM_eq_ok.mp hmembers⟩, ⟨parts', hparts', mapM_eq_ok.mp hoperations⟩,
      hliterals, rfl, hinterfaces, hx, hy, hwidth, hheight, hstyle⟩
  · intro hgiven
    obtain ⟨fields, rfl, h⟩ := hgiven
    obtain ⟨parts, hparts, hmembers⟩ := h.members
    obtain ⟨parts', hparts', hoperations⟩ := h.operations
    simp only [readClassifier, fieldsOf, require_object.mpr h.name, ok_bind, h.kind, hparts,
      mapM_eq_ok.mpr hmembers, hparts', mapM_eq_ok.mpr hoperations, h.literals, h.declaredInterfaces,
      h.x, h.y, h.width, h.height, h.style, h.id, h.namespaceName, h.isAbstract, h.declaredSuperclass,
      ← h.key]
    rfl

theorem asKey_eq_ok {x : Value} (h : asKey v = .ok x) : x = v := by
  cases v <;> cases h <;> rfl

/-- The classifier that an end was found to be. -/
def EndShown (d : DiagramOf Value) (fields : List (String × Value)) (key : String)
    (e : EndpointOf Value) : Prop :=
  ∃ id c, fields.lookup key = some id ∧ asKey id = .ok id ∧ d.classifierById? id = some c ∧
    c.toEndpoint = e

/-- What reading a relationship finds in a document and a diagram. It has no key of its own yet. -/
structure RelationshipShown (d : DiagramOf Value) (fields : List (String × Value))
    (r : RelationshipOf Value) : Prop where
  key : r.key = 0
  id : presentOr fields "id" .null = r.id
  name : presentOr fields "name" (.str "") = r.name
  source : EndShown d fields "source_id" r.source
  target : EndShown d fields "target_id" r.target
  kind : ∃ word, fields.lookup "kind" = some word ∧
    wordOf RelationshipKind.ofWord? .relationshipKind word = .ok r.kind
  sourceRole : optional fields "source_role" = r.sourceRole
  targetRole : optional fields "target_role" = r.targetRole
  sourceMultiplicity : optional fields "source_multiplicity" = r.sourceMultiplicity
  targetMultiplicity : optional fields "target_multiplicity" = r.targetMultiplicity
  sourceTooltip : optional fields "source_tooltip" = r.sourceTooltip
  targetTooltip : optional fields "target_tooltip" = r.targetTooltip
  lineStyle : readLineStyle (presentOr fields "line_style" (.object [])) = .ok r.lineStyle
  controlPoints :
    Parts readControlPoint (valueOr fields "control_points" (.list [])) r.controlPoints

theorem readRelationship_eq_ok {r : RelationshipOf Value} :
    readRelationship d v = .ok r ↔ ∃ fields, v = .object fields ∧ RelationshipShown d fields r := by
  constructor
  · intro h
    obtain ⟨given, hgiven, h⟩ := bind_eq_ok.mp h
    obtain ⟨sourceId, hsource, h⟩ := bind_eq_ok.mp h
    obtain ⟨given', hgiven', h⟩ := bind_eq_ok.mp h
    obtain ⟨targetId, htarget, h⟩ := bind_eq_ok.mp h
    obtain ⟨fields, hfields, h⟩ := bind_eq_ok.mp h
    cases hs : d.classifierById? sourceId with
    | none =>
      rw [hs] at h
      cases h
    | some source =>
      cases ht : d.classifierById? targetId with
      | none =>
        rw [hs, ht] at h
        cases h
      | some target =>
        rw [hs, ht] at h
        obtain ⟨word, hword, h⟩ := bind_eq_ok.mp h
        obtain ⟨kind, hkind, h⟩ := bind_eq_ok.mp h
        obtain ⟨lineStyle, hline, h⟩ := bind_eq_ok.mp h
        obtain ⟨parts, hparts, h⟩ := bind_eq_ok.mp h
        obtain ⟨points, hpoints, h⟩ := bind_eq_ok.mp h
        cases h
        obtain rfl := fieldsOf_eq_ok.mp hfields
        obtain rfl := asKey_eq_ok hsource
        obtain rfl := asKey_eq_ok htarget
        exact ⟨fields, rfl, rfl, rfl, rfl,
          ⟨sourceId, source, require_object.mp hgiven, hsource, hs, rfl⟩,
          ⟨targetId, target, require_object.mp hgiven', htarget, ht, rfl⟩,
          ⟨word, require_object.mp hword, hkind⟩, rfl, rfl, rfl, rfl, rfl, rfl, hline,
          ⟨parts, hparts, mapM_eq_ok.mp hpoints⟩⟩
  · intro hgiven
    obtain ⟨fields, rfl, h⟩ := hgiven
    obtain ⟨sourceId, source, hgiven, hsource, hs, hs'⟩ := h.source
    obtain ⟨targetId, target, hgiven', htarget, ht, ht'⟩ := h.target
    obtain ⟨word, hword, hkind⟩ := h.kind
    obtain ⟨parts, hparts, hpoints⟩ := h.controlPoints
    simp only [readRelationship, fieldsOf, require_object.mpr hgiven, require_object.mpr hgiven',
      require_object.mpr hword, ok_bind, hsource, htarget, hs, ht, hs', ht', hkind, h.lineStyle,
      hparts, mapM_eq_ok.mpr hpoints, h.id, h.name, h.sourceRole, h.targetRole,
      h.sourceMultiplicity, h.targetMultiplicity, h.sourceTooltip, h.targetTooltip, ← h.key]
    rfl

end Elements

/-! ## Diagrams -/

section Diagrams

variable {v : Value} {d d' : DiagramOf Value} {s s' : Supply}

theorem mapError_eq_ok {α ε ε' : Type} {x : Except ε α} {f : ε → ε'} {a : α} :
    x.mapError f = .ok a ↔ x = .ok a := by
  cases x <;> simp [Except.mapError]

theorem addClassifier_eq_ok {c : ClassifierOf Value} : d.addClassifier c = .ok d' ↔
    d.keyOf? c.id = none ∧
      d' = { d with
        elements := d.elements ++ [.classifier c], index := d.index ++ [(c.id, c.key)] } := by
  unfold DiagramOf.addClassifier DiagramOf.holdsClassifier
  cases d.keyOf? c.id with
  | none => simp [eq_comm]
  | some key => by_cases h : key = c.key <;> simp [h]

theorem addRelationship_eq_ok {r : RelationshipOf Value} : d.addRelationship r = .ok d' ↔
    d.holdsClassifier r.source.id r.source.key = true ∧
      d.holdsClassifier r.target.id r.target.key = true ∧ d.holdsRelationship r.key = false ∧
      d' = { d with elements := d.elements ++ [.relationship r] } := by
  unfold DiagramOf.addRelationship
  cases d.holdsClassifier r.source.id r.source.key <;>
    cases d.holdsClassifier r.target.id r.target.key <;>
    cases d.holdsRelationship r.key <;> simp [eq_comm]

theorem makes_fieldsOf {α : Type} {a : α} {next : List (String × Value) → Making Fault α} :
    Makes (liftM (fieldsOf v) >>= next) s a s' ↔
      ∃ fields, v = .object fields ∧ Makes (next fields) s a s' := by
  rw [makes_bind]
  constructor
  · intro hgiven
    obtain ⟨fields, t, hlook, hnext⟩ := hgiven
    obtain ⟨hfields, ht⟩ := makes_lift.mp hlook
    rw [ht] at hnext
    exact ⟨fields, fieldsOf_eq_ok.mp hfields, hnext⟩
  · intro hgiven
    obtain ⟨fields, rfl, hnext⟩ := hgiven
    exact ⟨fields, s, makes_lift.mpr ⟨rfl, rfl⟩, hnext⟩

/-- Whether an element says that it is a classifier, or says nothing. -/
def saysClassifier (fields : List (String × Value)) : Bool :=
  (valueOr fields "element_type" (.str "classifier")).text? == some "classifier"

/-- Whether an element says that it is a relationship. -/
def saysRelationship (fields : List (String × Value)) : Bool :=
  (fields.lookup "element_type").bind (·.text?) == some "relationship"

/-- What the search for classifiers makes of an element. -/
inductive ClassifierStep (d : DiagramOf Value) (s : Supply) :
    Value → DiagramOf Value → Supply → Prop where
  | skipped {fields : List (String × Value)} (sort : saysClassifier fields = false) :
      ClassifierStep d s (.object fields) d s
  | added {fields : List (String × Value)} {c c' : ClassifierOf Value} {s' : Supply}
      (sort : saysClassifier fields = true) (shown : ClassifierShown fields c)
      (enrolled : s.enrolClassifier c = (c', s')) (hashed : asKey c'.id = .ok c'.id)
      (free : d.keyOf? c'.id = none) :
      ClassifierStep d s (.object fields) { d with
        elements := d.elements ++ [.classifier c'], index := d.index ++ [(c'.id, c'.key)] } s'

theorem makes_addClassifierElement :
    Makes (addClassifierElement d v) s d' s' ↔ ClassifierStep d s v d' s' := by
  unfold addClassifierElement
  rw [makes_fieldsOf]
  constructor
  · intro hgiven
    obtain ⟨fields, rfl, h⟩ := hgiven
    change Makes (if saysClassifier fields = true then _ else _) s d' s' at h
    cases hsort : saysClassifier fields with
    | false =>
      rw [hsort] at h
      obtain ⟨rfl, rfl⟩ := makes_pure.mp h
      exact .skipped hsort
    | true =>
      rw [hsort] at h
      obtain ⟨c', t₁, hmake, hrest⟩ := makes_bind.mp h
      obtain ⟨_, t₂, hhash, hadd⟩ := makes_bind.mp hrest
      obtain ⟨c, t₃, hread, henrol⟩ := makes_bind.mp hmake
      obtain ⟨hc, ht₃⟩ := makes_lift.mp hread
      obtain ⟨⟨id, hid⟩, ht₂⟩ := makes_discard.mp hhash
      obtain ⟨hd, hs⟩ := makes_lift.mp hadd
      obtain ⟨hfree, hd'⟩ := addClassifier_eq_ok.mp (mapError_eq_ok.mp hd)
      obtain ⟨_, hfields, shown⟩ := readClassifier_eq_ok.mp hc
      cases hfields
      rw [ht₃, makes_modifyGet] at henrol
      rw [asKey_eq_ok hid] at hid
      rw [hs, ht₂, hd']
      exact .added hsort shown henrol hid hfree
  · intro h
    cases h with
    | @skipped fields hsort =>
      refine ⟨fields, rfl, ?_⟩
      show Makes (if saysClassifier fields = true then _ else _) _ _ _
      rw [hsort]
      exact makes_pure.mpr ⟨rfl, rfl⟩
    | @added fields c c' s' hsort shown enrolled hashed free =>
      refine ⟨fields, rfl, ?_⟩
      show Makes (if saysClassifier fields = true then _ else _) _ _ _
      rw [hsort]
      have hc := readClassifier_eq_ok.mpr ⟨fields, rfl, shown⟩
      have hmake : Makes (makeClassifier (.object fields)) s c' s' :=
        makes_bind.mpr ⟨c, s, makes_lift.mpr ⟨hc, rfl⟩, makes_modifyGet.mpr enrolled⟩
      have hd := addClassifier_eq_ok.mpr ⟨free, rfl⟩
      refine makes_bind.mpr ⟨c', s', hmake, makes_bind.mpr ⟨⟨⟩, s', ?_, ?_⟩⟩
      · exact makes_discard.mpr ⟨⟨_, hashed⟩, rfl⟩
      · exact makes_lift.mpr ⟨mapError_eq_ok.mpr hd, rfl⟩

/-- What the search for relationships makes of an element. -/
inductive RelationshipStep (d : DiagramOf Value) (s : Supply) :
    Value → DiagramOf Value → Supply → Prop where
  | skipped {fields : List (String × Value)} (sort : saysRelationship fields = false) :
      RelationshipStep d s (.object fields) d s
  | added {fields : List (String × Value)} {r r' : RelationshipOf Value} {s' : Supply}
      (sort : saysRelationship fields = true) (shown : RelationshipShown d fields r)
      (enrolled : s.enrolRelationship r = (r', s'))
      (source : d.holdsClassifier r'.source.id r'.source.key = true)
      (target : d.holdsClassifier r'.target.id r'.target.key = true)
      (free : d.holdsRelationship r'.key = false) :
      RelationshipStep d s (.object fields)
        { d with elements := d.elements ++ [.relationship r'] } s'

theorem makes_addRelationshipElement :
    Makes (addRelationshipElement d v) s d' s' ↔ RelationshipStep d s v d' s' := by
  unfold addRelationshipElement
  rw [makes_fieldsOf]
  constructor
  · intro hgiven
    obtain ⟨fields, rfl, h⟩ := hgiven
    change Makes (if saysRelationship fields = true then _ else _) s d' s' at h
    cases hsort : saysRelationship fields with
    | false =>
      rw [hsort] at h
      obtain ⟨rfl, rfl⟩ := makes_pure.mp h
      exact .skipped hsort
    | true =>
      rw [hsort] at h
      obtain ⟨r', t₁, hmake, hadd⟩ := makes_bind.mp h
      obtain ⟨r, t₂, hread, henrol⟩ := makes_bind.mp hmake
      obtain ⟨hr, ht₂⟩ := makes_lift.mp hread
      obtain ⟨hd, hs⟩ := makes_lift.mp hadd
      obtain ⟨hsource, htarget, hfree, hd'⟩ := addRelationship_eq_ok.mp (mapError_eq_ok.mp hd)
      obtain ⟨_, hfields, shown⟩ := readRelationship_eq_ok.mp hr
      cases hfields
      rw [ht₂, makes_modifyGet] at henrol
      rw [hs, hd']
      exact .added hsort shown henrol hsource htarget hfree
  · intro h
    cases h with
    | @skipped fields hsort =>
      refine ⟨fields, rfl, ?_⟩
      show Makes (if saysRelationship fields = true then _ else _) _ _ _
      rw [hsort]
      exact makes_pure.mpr ⟨rfl, rfl⟩
    | @added fields r r' s' hsort shown enrolled source target free =>
      refine ⟨fields, rfl, ?_⟩
      show Makes (if saysRelationship fields = true then _ else _) _ _ _
      rw [hsort]
      have hr := readRelationship_eq_ok.mpr ⟨fields, rfl, shown⟩
      have hmake : Makes (makeRelationship d (.object fields)) s r' s' :=
        makes_bind.mpr ⟨r, s, makes_lift.mpr ⟨hr, rfl⟩, makes_modifyGet.mpr enrolled⟩
      have hd := addRelationship_eq_ok.mpr ⟨source, target, free, rfl⟩
      exact makes_bind.mpr ⟨r', s', hmake, makes_lift.mpr ⟨mapError_eq_ok.mpr hd, rfl⟩⟩

/-- What reading a header finds. The diagram has no elements yet. -/
structure HeaderShown (fields : List (String × Value)) (s : Supply) (d : DiagramOf Value)
    (s' : Supply) : Prop where
  name : fields.lookup "name" = some d.name
  description : presentOr fields "description" (.str "") = d.description
  author : optional fields "author" = d.author
  version : optional fields "version" = d.version
  showGrid : flag fields "show_grid" true = d.showGrid
  snapToGrid : flag fields "snap_to_grid" true = d.snapToGrid
  gridSize : realOf (valueOr fields "grid_size" (.float 20.0)) = .ok d.gridSize
  backgroundColor : presentOr fields "background_color" (.str "#FFFFFF") = d.backgroundColor
  begun : DiagramOf.empty d.name d.description d.author d.version (optional fields "uuid") s =
    ({ uuid := d.uuid, name := d.name, description := d.description, author := d.author
       version := d.version, backgroundColor := .str "#FFFFFF" }, s')
  elements : d.elements = []
  index : d.index = []

theorem makes_readHeader :
    Makes (readHeader v) s d s' ↔ ∃ fields, v = .object fields ∧ HeaderShown fields s d s' := by
  constructor
  · intro h
    obtain ⟨name, t₁, hname, hrest⟩ := makes_bind.mp h
    obtain ⟨fields, hv, hrest⟩ := makes_fieldsOf.mp hrest
    obtain ⟨d₀, t₂, hbegun, hrest⟩ := makes_bind.mp hrest
    obtain ⟨gridSize, t₃, hgrid, hdone⟩ := makes_bind.mp hrest
    obtain ⟨hname, ht₁⟩ := makes_lift.mp hname
    obtain ⟨hgrid, ht₃⟩ := makes_lift.mp hgrid
    obtain ⟨hd, hs⟩ := makes_pure.mp hdone
    rw [ht₁, makes_modifyGet] at hbegun
    rw [hv] at hname
    rw [hs, ht₃]
    refine ⟨fields, hv, ?_⟩
    cases congrArg Prod.fst hbegun
    cases hd
    exact ⟨require_object.mp hname, rfl, rfl, rfl, rfl, rfl, hgrid, rfl, hbegun, rfl, rfl⟩
  · intro hgiven
    obtain ⟨fields, rfl, h⟩ := hgiven
    refine makes_bind.mpr ⟨d.name, s, makes_lift.mpr ⟨require_object.mpr h.name, rfl⟩, ?_⟩
    refine makes_fieldsOf.mpr ⟨fields, rfl, ?_⟩
    rw [h.description, h.author, h.version]
    refine makes_bind.mpr ⟨_, s', makes_modifyGet.mpr h.begun, ?_⟩
    refine makes_bind.mpr ⟨d.gridSize, s', makes_lift.mpr ⟨h.gridSize, rfl⟩, ?_⟩
    rw [h.showGrid, h.snapToGrid, h.backgroundColor]
    refine makes_pure.mpr ⟨?_, rfl⟩
    rw [← h.elements, ← h.index]

/-- What reading a document does: the header, then all classifiers, then all relationships. -/
theorem makes_read : Makes (read v) s d s' ↔
    ∃ fields parts header d₁ s₀ s₁, v = .object fields ∧
      partsOf (valueOr fields "elements" (.list [])) = .ok parts ∧ HeaderShown fields s header s₀ ∧
      Makes (parts.foldlM addClassifierElement header) s₀ d₁ s₁ ∧
      Makes (parts.foldlM addRelationshipElement d₁) s₁ d s' := by
  constructor
  · intro h
    obtain ⟨header, s₀, hheader, hrest⟩ := makes_bind.mp h
    obtain ⟨fields, hfields, hrest⟩ := makes_fieldsOf.mp hrest
    obtain ⟨parts, t, hparts, hrest⟩ := makes_bind.mp hrest
    obtain ⟨d₁, s₁, hclassifiers, hrelationships⟩ := makes_bind.mp hrest
    obtain ⟨hparts, ht⟩ := makes_lift.mp hparts
    obtain ⟨_, hfields', shown⟩ := makes_readHeader.mp hheader
    rw [hfields] at hfields'
    cases hfields'
    rw [ht] at hclassifiers
    exact ⟨fields, parts, header, d₁, s₀, s₁, hfields, hparts, shown, hclassifiers, hrelationships⟩
  · intro hgiven
    obtain ⟨fields, parts, header, d₁, s₀, s₁, rfl, hparts, shown, hclassifiers, hrelationships⟩ := hgiven
    refine makes_bind.mpr ⟨header, s₀, makes_readHeader.mpr ⟨fields, rfl, shown⟩, ?_⟩
    refine makes_fieldsOf.mpr ⟨fields, rfl, ?_⟩
    refine makes_bind.mpr ⟨parts, s₀, makes_lift.mpr ⟨hparts, rfl⟩, ?_⟩
    exact makes_bind.mpr ⟨d₁, s₁, hclassifiers, hrelationships⟩

end Diagrams

end ClassAtlas.Document
