import ClassAtlas.Proofs.ServedDiagrams

/-! # Which documents get an answer

A document is refused with a reason if it cannot be read. Two things go past that. An integer beyond
the range of floating-point numbers stops the reading itself, and no response tells of it. And reading
takes texts as they stand, whatever their sort, so the use of a diagram can meet a value that does not
serve. For both uses it is said here which values must serve; every document gets an answer otherwise. -/

namespace ClassAtlas

namespace Document

/-! ## Values that serve -/

/-- A value that can be looked up under: neither a list nor an object. -/
def IsScalar (v : Value) : Prop := (∀ items, v ≠ .list items) ∧ ∀ fields, v ≠ .object fields

def IsText (v : Value) : Prop := ∃ text, v = .str text

/-- A text, or something that counts as absent. -/
def IsTextOrVoid (v : Value) : Prop := v.isTruthy = true → IsText v

section Needs

variable {ε α : Type} {x : Except ε Unit} {a : α} {v : Value} {v? : Option Value}

/-- What comes after a check comes about if the check passes. -/
theorem check_eq_ok {next : Unit → Except ε α} :
    (x >>= next) = .ok a ↔ x = .ok () ∧ next () = .ok a := by
  cases x with
  | error e => exact iff_of_false nofun fun h => nomatch h.1
  | ok u => exact (and_iff_right rfl).symm

theorem pure_eq_ok {a' : α} : (pure a : Except ε α) = .ok a' ↔ a = a' :=
  ⟨fun h => Except.ok.inj h, fun h => congrArg Except.ok h⟩

theorem if_eq_ok {p : Prop} [Decidable p] :
    (if p then x else pure ()) = .ok () ↔ (p → x = .ok ()) := by
  split
  · rename_i hp
    rw [forall_prop_of_true hp]
  · rename_i hp
    exact iff_of_true rfl fun h => absurd h hp

theorem IsText.isScalar (h : IsText v) : IsScalar v := by
  obtain ⟨text, rfl⟩ := h
  exact ⟨nofun, nofun⟩

theorem needText_eq_ok : needText v = .ok () ↔ IsText v := by
  cases v <;> simp [needText, IsText]

theorem needSplit_eq_ok : needSplit v = .ok () ↔ IsText v := by
  cases v <;> simp [needSplit, IsText]

theorem needHashable_eq_ok : needHashable v = .ok () ↔ IsScalar v := by
  cases v <;> simp [needHashable, IsScalar]

theorem needTextIfPresent_eq_ok : needTextIfPresent v = .ok () ↔ IsTextOrVoid v := by
  unfold needTextIfPresent IsTextOrVoid
  cases v.isTruthy with
  | false => exact iff_of_true rfl nofun
  | true => rw [if_pos rfl, needText_eq_ok, forall_prop_of_true rfl]

theorem needJoined_ok {vs : List Value} : needJoined vs = .ok () ↔ ∀ v ∈ vs, IsText v :=
  needJoined_eq_ok

theorem needPhrase_ok {words : List String} {vs : List Value} :
    needPhrase words vs = .ok () ↔ ∀ v ∈ vs, IsTextOrVoid v := needPhrase_eq_ok

theorem needTextIn_eq_ok : needTextIn v? = .ok () ↔ ∀ v ∈ v?, IsTextOrVoid v := by
  cases v? with
  | none => exact iff_of_true rfl nofun
  | some v => simp [needTextIn, needTextIfPresent_eq_ok]

end Needs

/-! ## Diagrams that can be used -/

/-- The relationships by which a classifier inherits. -/
def inheritances (d : DiagramOf Value) (c : ClassifierOf Value) : List (RelationshipOf Value) :=
  d.relationships.filter fun r => r.kind == .inheritance && r.source.id == c.id

/-- A diagram whose defects can be told. Parents are named only where they are too many, and a name
without a namespace then has to be a text. -/
structure Checkable (d : DiagramOf Value) : Prop where
  namespaces : ∀ c ∈ d.classifiers, IsScalar c.namespaceName
  names : ∀ c ∈ d.classifiers, IsScalar c.name
  parents : ∀ c ∈ d.classifiers, c.kind ≠ .interface → 1 < (inheritances d c).length →
    ∀ r ∈ inheritances d c, r.target.namespaceName.isTruthy = true ∨ IsText r.target.name
  multiplicities : ∀ r ∈ d.relationships, r.kind.isStructural = true →
    (∀ v ∈ r.sourceMultiplicity, IsTextOrVoid v) ∧ ∀ v ∈ r.targetMultiplicity, IsTextOrVoid v

/-- A classifier whose unit can be written. -/
structure Printable (c : ClassifierOf Value) : Prop where
  namespaceName : IsTextOrVoid c.namespaceName
  name : IsText c.name
  fields : ∀ f ∈ c.fields, IsTextOrVoid f.typeName ∧ IsTextOrVoid f.name
  returned : ∀ op ∈ c.operations, ∀ v ∈ op.returnType, IsTextOrVoid v
  parameters : ∀ op ∈ c.operations, ∀ p ∈ op.parameters, IsTextOrVoid p.typeName
  literals : c.kind = .enumeration → ∀ v ∈ c.literals, IsText v

section Uses

variable {d : DiagramOf Value} {c : ClassifierOf Value} {issues : List String}
  {style : Java.UnitStyle} {files : List (String × String)}

theorem qualifiedValue_isText {e : EndpointOf Value} :
    IsText (qualifiedValue e) ↔ e.namespaceName.isTruthy = true ∨ IsText e.name := by
  unfold qualifiedValue
  rw [isVoid_value]
  cases e.namespaceName.isTruthy with
  | false => exact (or_iff_right Bool.false_ne_true).symm
  | true => exact iff_of_true ⟨_, rfl⟩ (.inl rfl)

theorem parentsOf_parents (d : DiagramOf Value) (c : ClassifierOf Value) :
    Validation.parentsOf (Validation.parents d) c.id = (inheritances d c).map (·.target) := by
  unfold Validation.parentsOf Validation.parents inheritances
  rw [List.filter_map, List.map_map, List.filter_filter]
  simp only [Function.comp_def, Bool.and_comm]

theorem forall_listedParents {p : EndpointOf Value → Prop} : (∀ e ∈ listedParents d c, p e) ↔
    (c.kind ≠ .interface → 1 < (inheritances d c).length → ∀ r ∈ inheritances d c, p r.target) := by
  unfold listedParents
  rw [parentsOf_parents]
  dsimp only
  rw [List.length_map]
  split
  · rename_i h
    obtain ⟨hkind, hmany⟩ := Bool.and_eq_true_iff.mp h
    rw [forall_prop_of_true (bne_iff_ne.mp hkind), forall_prop_of_true (of_decide_eq_true hmany),
      List.forall_mem_map]
  · rename_i h
    refine iff_of_true (List.forall_mem_nil _) fun hkind hmany => absurd ?_ h
    exact Bool.and_eq_true_iff.mpr ⟨bne_iff_ne.mpr hkind, decide_eq_true hmany⟩

theorem validate_eq_ok : validate d = .ok issues ↔ Checkable d ∧ d.validate = issues := by
  unfold validate
  simp only [check_eq_ok, pure_eq_ok, forM_eq_ok, needHashable_eq_ok, needTextIn_eq_ok, needJoined_ok,
    List.forall_mem_map, forall_listedParents, qualifiedValue_isText, List.mem_filter, and_imp,
    ← and_assoc, and_congr_left_iff]
  intro _
  constructor
  · intro hgiven
    obtain ⟨⟨hnames, hmany⟩, hcounts⟩ := hgiven
    exact ⟨fun c hc => (hnames c hc).1, fun c hc => (hnames c hc).2, hmany, hcounts⟩
  · intro h
    exact ⟨⟨fun c hc => ⟨h.namespaces c hc, h.names c hc⟩, h.parents⟩, h.multiplicities⟩

theorem checkPath_eq_ok : checkPath c = .ok () ↔ IsTextOrVoid c.namespaceName ∧ IsText c.name := by
  unfold checkPath IsTextOrVoid
  dsimp only
  cases c.namespaceName.isTruthy
  case' false => rw [and_iff_right nofun]
  case' true =>
    rw [if_pos rfl, check_eq_ok, needSplit_eq_ok, forall_prop_of_true rfl]
    refine and_congr_right' ?_
  -- with a namespace or without, the name has to be a text
  all_goals
    cases c.name with
    | str text => exact iff_of_true rfl ⟨text, rfl⟩
    | _ => exact iff_of_false nofun fun h => nomatch h.choose_spec

theorem needClassName_eq_ok : needClassName c = .ok () ↔ (c.kind = .«class» → IsTextOrVoid c.name) := by
  unfold needClassName
  split
  · rename_i hkind
    rw [needPhrase_ok, List.forall_mem_singleton, forall_prop_of_true (beq_iff_eq.mp hkind)]
  · rename_i hkind
    exact iff_of_true rfl fun h => absurd (beq_iff_eq.mpr h) hkind

theorem checkImports_eq_ok {known : List (EndpointOf Value)} : checkImports c known = .ok () ↔
    (∀ other ∈ known, IsScalar other.name) ∧
      (∀ f ∈ c.fields, IsTextOrVoid f.typeName) ∧
      ∀ op ∈ c.operations, (∀ v ∈ op.returnType, IsTextOrVoid v) ∧
        ∀ p ∈ op.parameters, IsTextOrVoid p.typeName := by
  unfold checkImports
  simp only [check_eq_ok, forM_eq_ok, needHashable_eq_ok, needTextIfPresent_eq_ok, needTextIn_eq_ok]

theorem checkText_eq_ok {relationships : List (RelationshipOf Value)} {known : List (EndpointOf Value)} :
    checkText c relationships known = .ok () ↔ checkImports c known = .ok () ∧
      (c.kind = .«class» → IsTextOrVoid c.name) ∧
      (∀ r ∈ relationships, lists c r = true → IsText r.target.name) ∧
      (∀ f ∈ c.fields, IsTextOrVoid f.typeName ∧ IsTextOrVoid f.name) ∧
      (c.kind = .enumeration → ∀ v ∈ c.literals, IsText v) := by
  unfold checkText
  simp only [check_eq_ok, forM_eq_ok, needClassName_eq_ok, needPhrase_ok, needJoined_ok, if_eq_ok,
    beq_iff_eq, List.forall_mem_map, List.mem_filter, and_imp, List.forall_mem_cons, List.not_mem_nil,
    false_implies, implies_true, and_true]

/-- Where the targets of relationships are classifiers of the diagram, the units can be written if each
unit can. -/
theorem units_eq_ok (htargets : ∀ r ∈ d.relationships, ∃ c ∈ d.classifiers, c.toEndpoint = r.target) :
    units style d = .ok files ↔
      (∀ c ∈ d.classifiers, Printable c) ∧ Java.units style d = files := by
  unfold units
  simp only [check_eq_ok, pure_eq_ok, forM_eq_ok, checkPath_eq_ok, checkText_eq_ok, checkImports_eq_ok,
    List.forall_mem_map, and_congr_left_iff]
  intro _
  constructor
  · intro h c hc
    obtain ⟨⟨hnamespace, hname⟩, ⟨-, -, hsignatures⟩, -, -, hfields, hliterals⟩ := h c hc
    exact ⟨hnamespace, hname, hfields, fun op hop => (hsignatures op hop).1,
      fun op hop => (hsignatures op hop).2, hliterals⟩
  · intro h c hc
    have hc' := h c hc
    refine ⟨⟨hc'.namespaceName, hc'.name⟩, ⟨fun other hother => (h other hother).name.isScalar,
      fun f hf => (hc'.fields f hf).1, fun op hop => ⟨hc'.returned op hop, hc'.parameters op hop⟩⟩,
      fun _ _ => hc'.name, fun r hr _ => ?_, hc'.fields, hc'.literals⟩
    obtain ⟨target, htarget, hends⟩ := htargets r hr
    rw [← hends]
    exact (h target htarget).name

end Uses

/-! ## Numbers out of range -/

/-- A value stands where a document has a number. -/
inductive NumberSlot (document : List (String × Value)) (v : Value) : Prop where
  | gridSize (found : document.lookup "grid_size" = some v)
  | box {parts : List Value} {element : List (String × Value)} {key : String}
      (listed : partsOf (valueOr document "elements" (.list [])) = .ok parts)
      (mem : .object element ∈ parts) (side : key ∈ ["x", "y", "width", "height"])
      (found : element.lookup key = some v)
  | lineWidth {parts : List Value} {element style : List (String × Value)}
      (listed : partsOf (valueOr document "elements" (.list [])) = .ok parts)
      (mem : .object element ∈ parts) (styled : element.lookup "line_style" = some (.object style))
      (found : style.lookup "width" = some v)

/-- A document has an integer beyond all floating-point numbers where a number is read. -/
def OutOfRange (document : List (String × Value)) : Prop :=
  ∃ n, NumberSlot document (.int n) ∧ Number.floatOfInt? n = none

/-- Something finds a number too large only if this holds. -/
def Overflows {α : Type} (p : Prop) (x : Except Fault α) : Prop := x = .error .numberTooLarge → p

/-- Work finds a number too large only if this holds. -/
def Overflowing {α : Type} (p : Prop) (work : Making Fault α) : Prop :=
  ∀ s, Overflows p (work.run.run s).1

namespace Overflows

variable {p : Prop} {α β : Type} {x : Except Fault α} {f : α → Except Fault β} {v default : Value}
  {fields : List (String × Value)} {key : String}

theorem pure (a : α) : Overflows p (pure a) := nofun

theorem bind (hx : Overflows p x) (hf : ∀ a, x = .ok a → Overflows p (f a)) :
    Overflows p (x >>= f) := by
  cases x with
  | error e =>
    intro h
    cases h
    exact hx rfl
  | ok a => exact hf a rfl

theorem mapM {f : Value → Except Fault β} {vs : List Value} (h : ∀ v ∈ vs, Overflows p (f v)) :
    Overflows p (vs.mapM f) := by
  induction vs with
  | nil => exact pure []
  | cons v vs ih =>
    obtain ⟨hv, hvs⟩ := List.forall_mem_cons.mp h
    rw [List.mapM_cons]
    exact hv.bind fun b _ => (ih hvs).bind fun bs _ => pure _

theorem require : Overflows p (require v key) := by
  unfold Document.require
  split
  · split <;> exact nofun
  · exact nofun

theorem fieldsOf : Overflows p (fieldsOf v) := by
  cases v <;> exact nofun

theorem partsOf : Overflows p (partsOf v) := by
  cases v <;> exact nofun

theorem asKey : Overflows p (asKey v) := by
  cases v <;> exact nofun

theorem wordOf {ofWord? : String → Option α} {vocabulary : Vocabulary} :
    Overflows p (wordOf ofWord? vocabulary v) := by
  unfold Document.wordOf
  split <;> exact nofun

theorem readParameter : Overflows p (readParameter v) :=
  require.bind fun _ _ => require.bind fun _ _ => fieldsOf.bind fun _ _ => pure _

theorem readField : Overflows p (readField v) :=
  require.bind fun _ _ => require.bind fun _ _ => fieldsOf.bind fun _ _ => wordOf.bind fun _ _ => pure _

theorem readOperation : Overflows p (readOperation v) :=
  require.bind fun _ _ => fieldsOf.bind fun _ _ => wordOf.bind fun _ _ => partsOf.bind fun _ _ =>
    (mapM fun _ _ => readParameter).bind fun _ _ => pure _

theorem readControlPoint : Overflows p (readControlPoint v) :=
  require.bind fun _ _ => require.bind fun _ _ => pure _

theorem foldlM {step : β → α → Except Fault β} {xs : List α} {b : β}
    (h : ∀ x ∈ xs, ∀ b, Overflows p (step b x)) : Overflows p (xs.foldlM step b) := by
  induction xs generalizing b with
  | nil => exact pure b
  | cons x xs ih =>
    obtain ⟨hx, hxs⟩ := List.forall_mem_cons.mp h
    rw [List.foldlM_cons]
    exact (hx b).bind fun b _ => ih hxs

theorem readStyle : Overflows p (readStyle v) := by
  cases v with
  | object fields =>
    refine foldlM fun entry _ style => ?_
    obtain ⟨key, given⟩ := entry
    dsimp only
    split
    · exact nofun
    · split
      · exact nofun
      · split <;> exact nofun
  | _ => exact nofun

/-- Only an integer out of range is too large. -/
theorem realOf {x : Float}
    (h : ∀ n, fields.lookup key = some (.int n) → Number.floatOfInt? n = none → p) :
    Overflows p (realOf (valueOr fields key (.float x))) := by
  unfold valueOr
  cases hlookup : fields.lookup key with
  | none => exact nofun
  | some v =>
    rw [Option.getD_some]
    cases v with
    | int n =>
      unfold Document.realOf
      dsimp only
      split
      · exact nofun
      · rename_i hnone
        exact fun _ => h n hlookup hnone
    | str text =>
      unfold Document.realOf
      dsimp only
      split <;> exact nofun
    | _ => exact nofun

theorem readClassifier
    (h : ∀ fields, v = .object fields → ∀ key ∈ ["x", "y", "width", "height"], ∀ n,
      fields.lookup key = some (.int n) → Number.floatOfInt? n = none → p) :
    Overflows p (readClassifier v) := by
  refine fieldsOf.bind fun fields hfields => ?_
  have hside : ∀ key ∈ ["x", "y", "width", "height"], ∀ x,
      Overflows p (Document.realOf (valueOr fields key (.float x))) :=
    fun key hkey x => realOf (h fields (fieldsOf_eq_ok.mp hfields) key hkey)
  refine require.bind fun _ _ => wordOf.bind fun _ _ => ?_
  refine partsOf.bind fun _ _ => (mapM fun _ _ => readField).bind fun _ _ => ?_
  refine partsOf.bind fun _ _ => (mapM fun _ _ => readOperation).bind fun _ _ => ?_
  refine partsOf.bind fun _ _ => partsOf.bind fun _ _ => ?_
  refine (hside "x" (by simp) _).bind fun _ _ => (hside "y" (by simp) _).bind fun _ _ => ?_
  refine (hside "width" (by simp) _).bind fun _ _ => (hside "height" (by simp) _).bind fun _ _ => ?_
  exact readStyle.bind fun _ _ => pure _

theorem readLineStyle
    (h : ∀ fields, v = .object fields → ∀ n, fields.lookup "width" = some (.int n) →
      Number.floatOfInt? n = none → p) : Overflows p (readLineStyle v) :=
  fieldsOf.bind fun fields hfields => (realOf (h fields (fieldsOf_eq_ok.mp hfields))).bind fun _ _ =>
    wordOf.bind fun _ _ => pure _

/-- What an object holds that may be absent was given with it. -/
theorem lookup_of_presentOr {inner : List (String × Value)} {k : String}
    (h : presentOr fields key (.object []) = .object inner) (hk : inner.lookup k = some v) :
    fields.lookup key = some (.object inner) := by
  have hne : (Value.object [] : Value) ≠ .object inner := by
    intro heq
    cases heq
    cases hk
  unfold presentOr at h
  split at h
  · split at h
    · rw [← h]
      assumption
    · exact absurd h hne
  · exact absurd h hne

theorem readRelationship {d : DiagramOf Value}
    (h : ∀ fields, v = .object fields → ∀ style, fields.lookup "line_style" = some (.object style) →
      ∀ n, style.lookup "width" = some (.int n) → Number.floatOfInt? n = none → p) :
    Overflows p (readRelationship d v) := by
  refine require.bind fun _ _ => asKey.bind fun _ _ => require.bind fun _ _ => asKey.bind fun _ _ => ?_
  refine fieldsOf.bind fun fields hfields => ?_
  split
  · refine require.bind fun _ _ => wordOf.bind fun _ _ => ?_
    have hstyle : Overflows p (Document.readLineStyle (presentOr fields "line_style" (.object []))) :=
      readLineStyle fun style hstyle n hn =>
        h fields (fieldsOf_eq_ok.mp hfields) style (lookup_of_presentOr hstyle hn) n hn
    exact hstyle.bind fun _ _ => partsOf.bind fun _ _ =>
      (mapM fun _ _ => readControlPoint).bind fun _ _ => pure _
  · exact nofun
  · exact nofun

end Overflows

namespace Overflowing

variable {p : Prop} {α β : Type} {work : Making Fault α} {next : α → Making Fault β} {x : Except Fault α}
  {d : DiagramOf Value} {v : Value}

theorem pure (a : α) : Overflowing p (pure a) := fun _ => nofun

theorem bind (h : Overflowing p work) (hnext : ∀ a, Overflowing p (next a)) :
    Overflowing p (work >>= next) := by
  intro s
  have hs := h s
  rw [run_bind_eq]
  generalize work.run.run s = outcome at hs ⊢
  obtain ⟨e | a, t⟩ := outcome
  · intro htoo
    cases htoo
    exact hs rfl
  · exact hnext a t

theorem lift (h : Overflows p x) : Overflowing p (liftM x : Making Fault α) := by
  intro s
  cases x with
  | error e => exact h
  | ok a => exact nofun

/-- What follows a step runs on what the step gave. -/
theorem step (h : Overflows p x) (hnext : ∀ a, x = .ok a → Overflowing p (next a)) :
    Overflowing p (liftM x >>= next) := by
  cases x with
  | error e => exact fun _ htoo => h (by cases htoo; rfl)
  | ok a => exact hnext a rfl

theorem fieldsOf {next : List (String × Value) → Making Fault β}
    (h : ∀ fields, v = .object fields → Overflowing p (next fields)) :
    Overflowing p (liftM (fieldsOf v) >>= next) :=
  step .fieldsOf fun fields hfields => h fields (fieldsOf_eq_ok.mp hfields)

theorem modifyGet (f : Supply → α × Supply) : Overflowing p (modifyGet f : Making Fault α) :=
  fun _ => nofun

theorem discard (h : Overflows p x) : Overflowing p (discard (liftM x : Making Fault α)) :=
  (lift h).bind fun _ => pure _

theorem refused {x : Except Refusal α} :
    Overflowing p (liftM (x.mapError Fault.refused) : Making Fault α) := by
  refine lift ?_
  cases x <;> exact nofun

theorem foldlM {step : β → α → Making Fault β} {xs : List α} {b : β}
    (h : ∀ x ∈ xs, ∀ b, Overflowing p (step b x)) : Overflowing p (xs.foldlM step b) := by
  induction xs generalizing b with
  | nil => exact pure b
  | cons x xs ih =>
    obtain ⟨hx, hxs⟩ := List.forall_mem_cons.mp h
    rw [List.foldlM_cons]
    exact (hx b).bind fun b => ih hxs

theorem addClassifierElement
    (h : ∀ fields, v = .object fields → ∀ key ∈ ["x", "y", "width", "height"], ∀ n,
      fields.lookup key = some (.int n) → Number.floatOfInt? n = none → p) :
    Overflowing p (addClassifierElement d v) := by
  refine fieldsOf fun fields _ => ?_
  split
  · have hmake : Overflowing p (makeClassifier v) :=
      (lift (.readClassifier h)).bind fun _ => modifyGet _
    exact hmake.bind fun _ => (discard .asKey).bind fun _ => refused
  · exact pure _

theorem addRelationshipElement
    (h : ∀ fields, v = .object fields → ∀ style, fields.lookup "line_style" = some (.object style) →
      ∀ n, style.lookup "width" = some (.int n) → Number.floatOfInt? n = none → p) :
    Overflowing p (addRelationshipElement d v) := by
  refine fieldsOf fun fields _ => ?_
  split
  · have hmake : Overflowing p (makeRelationship d v) :=
      (lift (.readRelationship h)).bind fun _ => modifyGet _
    exact hmake.bind fun _ => refused
  · exact pure _

theorem readHeader {document : List (String × Value)} :
    Overflowing (OutOfRange document) (readHeader (.object document)) := by
  refine (lift .require).bind fun _ => fieldsOf fun fields hfields => (modifyGet _).bind fun _ => ?_
  cases hfields
  exact (lift (.realOf fun n hfound hnone => ⟨n, .gridSize hfound, hnone⟩)).bind fun _ => pure _

/-- Reading a document finds a number too large only if it has one. -/
theorem read (document : List (String × Value)) :
    Overflowing (OutOfRange document) (read (.object document)) := by
  refine readHeader.bind fun header => fieldsOf fun fields hfields => ?_
  cases hfields
  refine step .partsOf fun parts hparts => ?_
  refine (foldlM fun part hpart d => ?_).bind fun d => foldlM fun part hpart d => ?_
  · refine addClassifierElement fun element helement key hkey n hfound hnone => ?_
    subst helement
    exact ⟨n, .box hparts hpart hkey hfound, hnone⟩
  · refine addRelationshipElement fun element helement style hstyle n hfound hnone => ?_
    subst helement
    exact ⟨n, .lineWidth hparts hpart hstyle hfound, hnone⟩

end Overflowing

end Document

/-! ## Answers -/

namespace Http

open Document (Fault Misuse Checkable Printable OutOfRange run_bind_eq)

/-- The document that was sent, as the service reads it. -/
def reading (document : List (String × Value)) (s : Server) : Except Fault (DiagramOf Value) :=
  ((Document.read (.object document)).run.run s.supply).1

/-- What the response to an unreadable document says. -/
def refusal (f : Fault) : String :=
  if f.isDangling then f.message else "Invalid diagram document: " ++ f.message

/-- What is answered about the units of a diagram. -/
def filesBody (files : List (String × String)) : Value := .object [
  ("files", .object (files.map fun (path, text) => (path, .str text))), ("count", .int files.length)]

/-- How work ends on a document that cannot be read. -/
def ending : Fault → Ending
  | .numberTooLarge => .breakdown (.fault .numberTooLarge)
  | f => .response (detail 400 (refusal f))

/-- A document got the usual response, or was refused as a bad request. -/
inductive Answered (usual : DiagramOf Value → Value) (read : Except Fault (DiagramOf Value)) :
    Except Breakdown Response → Prop where
  | used {d : DiagramOf Value} (h : read = .ok d) : Answered usual read (.ok (ok (usual d)))
  | refused {f : Fault} (h : read = .error f) : Answered usual read (.ok (detail 400 (refusal f)))

/-- Nothing that was sent is out of range, and what was read serves. -/
structure Answerable (serves : DiagramOf Value → Prop) (read : Except Fault (DiagramOf Value)) : Prop where
  inRange : read ≠ .error .numberTooLarge
  serves : ∀ d, read = .ok d → serves d

section Answers

variable {r : Request} {s : Server} {route : Route} {document : List (String × Value)}
  {use : DiagramOf Value → Work Response} {usual : DiagramOf Value → Value}
  {serves : DiagramOf Value → Prop}

theorem handle_outcome (hasks : r.Asks route) :
    (handle r s).1 = match ((answer r route).run.run s).1 with
      | .ok response | .error (.response response) => .ok response
      | .error (.breakdown b) => .error b := by
  rw [handle, hasks]
  have hrun : (answer r route).run s = (answer r route).run.run s := rfl
  dsimp only
  rw [hrun]
  rcases (answer r route).run.run s with ⟨(response | b) | response, t⟩ <;> rfl

theorem run_readDocument (v : Value) (s : Server) : (readDocument v).run.run s =
    (((Document.read v).run.run s.supply).1.mapError ending,
      { s with supply := ((Document.read v).run.run s.supply).2 }) := by
  rw [readDocument, run_bind_eq]
  have hdrawing : (drawing (Document.read v)).run.run s = (.ok ((Document.read v).run.run s.supply).1,
    { s with supply := ((Document.read v).run.run s.supply).2 }) := rfl
  rw [hdrawing]
  dsimp only
  rcases (Document.read v).run.run s.supply with ⟨f | d, supply⟩
  · dsimp only
    cases f with
    | refused reason => cases reason <;> rfl
    | _ => rfl
  · rfl

/-- Where a route uses the document that was sent, it is answered exactly if it is read and serves. -/
theorem answered_iff (hasks : r.Asks route) (hform : documentIn r.body = .ok (.object document))
    (hanswer : answer r route = (do use (← readDocument (← accept (documentIn r.body)))))
    (huse : ∀ d supply, reading document s = .ok d → serves d →
      ((use d).run.run { s with supply }).1 = .ok (ok (usual d)))
    (hfails : ∀ d supply, reading document s = .ok d → ¬ serves d →
      ∃ b, ((use d).run.run { s with supply }).1 = .error (.breakdown b)) :
    Answered usual (reading document s) (handle r s).1 ↔ Answerable serves (reading document s) := by
  let supply := ((Document.read (.object document)).run.run s.supply).2
  have hrun : ((answer r route).run.run s).1 = match reading document s with
      | .ok d => ((use d).run.run { s with supply }).1
      | .error f => .error (ending f) := by
    rw [hanswer, hform]
    show ((readDocument (.object document) >>= use).run.run s).1 = _
    rw [run_bind_eq, run_readDocument, reading]
    cases ((Document.read (.object document)).run.run s.supply).1 <;> rfl
  rw [handle_outcome hasks, hrun]
  cases hread : reading document s with
  | error f =>
    by_cases htoo : f = .numberTooLarge
    · subst htoo
      exact iff_of_false nofun fun h => h.inRange rfl
    · have hending : ending f = .response (detail 400 (refusal f)) := by
        cases f <;> first | rfl | exact absurd rfl htoo
      dsimp only
      rw [hending]
      exact iff_of_true (.refused rfl) ⟨fun h => htoo (Except.error.inj h), nofun⟩
  | ok d =>
    dsimp only
    by_cases hserves : serves d
    · rw [huse d supply hread hserves]
      exact iff_of_true (.used rfl) ⟨nofun, fun d' h => Except.ok.inj h ▸ hserves⟩
    · obtain ⟨b, hb⟩ := hfails d supply hread hserves
      rw [hb]
      exact iff_of_false nofun fun h => hserves (h.serves d rfl)

theorem run_useTexts {α : Type} (result : Except Misuse α) (body : α → Value) (s : Server) :
    ((do return ok (body (← useTexts result)) : Work Response).run.run s).1 = match result with
      | .ok a => .ok (ok (body a))
      | .error m => .error (.breakdown (.misuse m)) := by
  cases result <;> rfl

theorem validate_answered_iff (hasks : r.Asks .validate)
    (hform : documentIn r.body = .ok (.object document)) :
    Answered (fun d => validationBody d.validate) (reading document s) (handle r s).1 ↔
      Answerable Checkable (reading document s) := by
  refine answered_iff hasks hform rfl (fun d supply _ hserves => ?_) fun d supply _ hfails => ?_
  · rw [run_useTexts, Document.validate_eq_ok.mpr ⟨hserves, rfl⟩]
  · rw [run_useTexts]
    cases hissues : Document.validate d with
    | ok issues => exact absurd (Document.validate_eq_ok.mp hissues).1 hfails
    | error m => exact ⟨.misuse m, rfl⟩

theorem generate_answered_iff (hasks : r.Asks .generate)
    (hform : documentIn r.body = .ok (.object document)) :
    Answered (fun d => filesBody (Java.units s.settings.generator d))
        (reading document s) (handle r s).1 ↔
      Answerable (fun d => ∀ c ∈ d.classifiers, Printable c) (reading document s) := by
  have htargets : ∀ d, reading document s = .ok d →
      ∀ r ∈ d.relationships, ∃ c ∈ d.classifiers, c.toEndpoint = r.target := by
    intro d hread
    exact (Document.arranged_of_read (Prod.ext hread rfl)).2.targets
  have huse : ∀ d supply, ((do
      return ok (filesBody (← useTexts (Document.units (← get).settings.generator d))) :
        Work Response).run.run { s with supply }).1 =
      ((do return ok (filesBody (← useTexts (Document.units s.settings.generator d))) :
        Work Response).run.run { s with supply }).1 := by
    intro d supply
    rw [run_bind_eq]
    rfl
  refine answered_iff hasks hform rfl (fun d supply hread hserves => ?_) fun d supply hread hfails => ?_
  · refine (huse d supply).trans ?_
    rw [run_useTexts, (Document.units_eq_ok (htargets d hread)).mpr ⟨hserves, rfl⟩]
  · cases hfiles : Document.units s.settings.generator d with
    | ok files => exact absurd ((Document.units_eq_ok (htargets d hread)).mp hfiles).1 hfails
    | error m =>
      refine ⟨.misuse m, (huse d supply).trans ?_⟩
      rw [run_useTexts, hfiles]

end Answers

/-- A document sent for its defects or its units is answered as usual or refused as a bad request if and
only if no number in it is out of range and what was read has values that serve. -/
theorem document_answered_iff {r : Request} {s : Server} {v : Value} {document : List (String × Value)}
    (hmethod : r.method = "POST") (hbody : r.body.read = .ok v)
    (hgiven : v.get? "diagram" = some (.object document)) :
    (r.path = "/api/diagrams/validate" →
      (Answered (fun d => validationBody d.validate) (reading document s) (handle r s).1 ↔
        Answerable Checkable (reading document s))) ∧
    (r.path = "/api/diagrams/generate" →
      (Answered (fun d => filesBody (Java.units s.settings.generator d))
          (reading document s) (handle r s).1 ↔
        Answerable (fun d => ∀ c ∈ d.classifiers, Printable c) (reading document s))) ∧
    (reading document s = .error .numberTooLarge → OutOfRange document) := by
  have hform : documentIn r.body = .ok (.object document) := documentIn_eq hbody hgiven
  exact ⟨fun hpath => validate_answered_iff (asks_validate hmethod hpath) hform,
    fun hpath => generate_answered_iff (asks_generate hmethod hpath) hform,
    Document.Overflowing.read document s.supply⟩

/-- Of a diagram with a number for a multiplicity the defects are not told, but its units are. -/
theorem document_answered_iff_numbered :
    let document : List (String × Value) := [("name", .str "shapes"), ("elements", .list [
      .object [("id", .str "s"), ("name", .str "Shape")],
      .object [("element_type", .str "relationship"), ("source_id", .str "s"), ("target_id", .str "s"),
        ("kind", .str "association"), ("source_multiplicity", .int 5)]])]
    let sent (target : String) : Request := ⟨"POST", target, .value (.object [("diagram", .object document)])⟩
    ¬ Answered (fun d => validationBody d.validate) (reading document {})
        (handle (sent "/api/diagrams/validate") {}).1 ∧
      Answered (fun d => filesBody (Java.units {} d)) (reading document {})
        (handle (sent "/api/diagrams/generate") {}).1 := by
  intro document sent
  have hgiven : (Value.object [("diagram", .object document)]).get? "diagram" = some (.object document) :=
    rfl
  have hiff (target : String) := document_answered_iff (r := sent target) (s := {}) rfl rfl hgiven
  obtain ⟨d, hread, hshape, hedge⟩ : ∃ d, reading document {} = .ok d ∧
      (∃ c, d.classifiers = [c] ∧ c.namespaceName = .str "" ∧ c.name = .str "Shape" ∧ c.fields = [] ∧
        c.operations = [] ∧ c.literals = []) ∧
      ∃ r ∈ d.relationships, r.kind = .association ∧ r.sourceMultiplicity = some (.int 5) :=
    ⟨_, rfl, ⟨_, rfl, rfl, rfl, rfl, rfl, rfl⟩, _, List.mem_cons_self, rfl, rfl⟩
  constructor
  · rw [(hiff "/api/diagrams/validate").1 (by decide +kernel)]
    intro hanswerable
    obtain ⟨r, hr, hkind, hcount⟩ := hedge
    obtain ⟨hnumber, -⟩ := (hanswerable.serves d hread).multiplicities r hr (by rw [hkind]; rfl)
    obtain ⟨text, htext⟩ := hnumber (.int 5) (by rw [hcount]; rfl) rfl
    cases htext
  · rw [(hiff "/api/diagrams/generate").2.1 (by decide +kernel)]
    obtain ⟨c, hc, hnamespace, hname, hfields, hoperations, hliterals⟩ := hshape
    refine ⟨by rw [hread]; exact nofun, fun d' hd' => ?_⟩
    obtain rfl : d = d' := Except.ok.inj (hread.symm.trans hd')
    rw [hc]
    refine List.forall_mem_singleton.mpr ⟨?_, ⟨_, hname⟩, ?_, ?_, ?_, ?_⟩
    · rw [hnamespace]; exact nofun
    · rw [hfields]; exact nofun
    · rw [hoperations]; exact nofun
    · rw [hoperations]; exact nofun
    · rw [hliterals]; exact fun _ => nofun

end Http

end ClassAtlas
