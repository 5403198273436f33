import ClassAtlas.Proofs.Reachable
import ClassAtlas.Proofs.SettledDocuments

/-! # Reading what was written

Two arguments meet here. Every step of a reading keeps the diagram arranged: classifiers stand before
relationships, the index lists them under ids that do not find each other, keys are fresh, and all
pieces are settled. And in an arranged diagram the next step of reading a settled diagram never fails:
its id is free, its ends are found. So what was read once can be written and read for ever. -/

namespace ClassAtlas.Document

/-- Both diagrams differ in their elements only. -/
def SameHeader (d d' : DiagramOf Value) : Prop :=
  d' = { d with elements := d'.elements, index := d'.index }

theorem SameHeader.trans {d₁ d₂ d₃ : DiagramOf Value} (h : SameHeader d₁ d₂) (h' : SameHeader d₂ d₃) :
    SameHeader d₁ d₃ := by
  rw [SameHeader, h', h]

/-! ## The invariant of reading -/

/-- A diagram into which a document is being read. -/
structure Arranged (d : DiagramOf Value) (s : Supply) : Prop where
  elements : d.elements = d.classifiers.map .classifier ++ d.relationships.map .relationship
  index : d.index = d.classifiers.map fun c => (c.id, c.key)
  classifiers : ∀ c ∈ d.classifiers, ClassifierSettled c
  apart : d.classifiers.Pairwise fun a b => (b.id == a.id) = false
  increasing : d.classifiers.Pairwise fun a b => a.key < b.key
  bornClassifiers : ∀ c ∈ d.classifiers, c.key < s.born
  relationships : ∀ r ∈ d.relationships, RelationshipSettled r
  sources : ∀ r ∈ d.relationships, ∃ c ∈ d.classifiers, c.toEndpoint = r.source
  targets : ∀ r ∈ d.relationships, ∃ c ∈ d.classifiers, c.toEndpoint = r.target
  bornRelationships : ∀ r ∈ d.relationships, r.key < s.born

section Adding

variable {d : DiagramOf Value} {es : List (ElementOf Value)} {index : List (Value × Nat)}

theorem classifiers_append_classifier {c : ClassifierOf Value} :
    DiagramOf.classifiers { d with elements := d.elements ++ [.classifier c], index } =
      d.classifiers ++ [c] := by
  unfold DiagramOf.classifiers
  rw [List.filterMap_append]
  rfl

theorem relationships_append_classifier {c : ClassifierOf Value} :
    DiagramOf.relationships { d with elements := d.elements ++ [.classifier c], index } =
      d.relationships := by
  unfold DiagramOf.relationships
  rw [List.filterMap_append]
  exact List.append_nil _

theorem classifiers_append_relationship {r : RelationshipOf Value} :
    DiagramOf.classifiers { d with elements := d.elements ++ [.relationship r] } = d.classifiers := by
  unfold DiagramOf.classifiers
  rw [List.filterMap_append]
  exact List.append_nil _

theorem relationships_append_relationship {r : RelationshipOf Value} :
    DiagramOf.relationships { d with elements := d.elements ++ [.relationship r] } =
      d.relationships ++ [r] := by
  unfold DiagramOf.relationships
  rw [List.filterMap_append]
  rfl

end Adding

/-! ## Ids and keys -/

/-- A value that may be looked up under is found under itself. -/
theorem finds_self {v : Value} (h : asKey v = .ok v) : (v == v) = true := by
  show v.finds v = true
  cases v with
  | list items => cases h
  | object fields => cases h
  | float x =>
    cases hx : x == x <;>
      simp [Value.finds, Value.same, Value.quantity?, Value.Quantity.same, Value.isNaN, bne, hx]
  | _ => simp [Value.finds, Value.same, Value.quantity?, Value.Quantity.same]

theorem idOr_born {s : Supply} {given : Value} : (s.idOr given).2.born = s.born := by
  unfold Supply.idOr
  split <;> rfl

theorem enrolClassifier_born {s s' : Supply} {c c' : ClassifierOf Value}
    (h : s.enrolClassifier c = (c', s')) : c'.key = s.born ∧ s'.born = s.born + 1 := by
  cases h
  exact ⟨idOr_born, congrArg (· + 1) idOr_born⟩

theorem enrolRelationship_born {s s' : Supply} {r r' : RelationshipOf Value}
    (h : s.enrolRelationship r = (r', s')) : r'.key = s.born ∧ s'.born = s.born + 1 := by
  cases h
  exact ⟨idOr_born, congrArg (· + 1) idOr_born⟩

theorem lookup_self {cs : List (ClassifierOf Value)} {c : ClassifierOf Value}
    (apart : cs.Pairwise fun a b => (b.id == a.id) = false) (hc : c ∈ cs)
    (hself : (c.id == c.id) = true) :
    (cs.map fun c => (c.id, c.key)).lookup c.id = some c.key := by
  induction cs with
  | nil => cases hc
  | cons a cs ih =>
    obtain ⟨ha, apart⟩ := List.pairwise_cons.mp apart
    rw [List.map_cons, List.lookup_cons]
    rcases List.mem_cons.mp hc with rfl | hc
    · rw [hself]
    · rw [ha c hc]
      exact ih apart hc

namespace Arranged

variable {d d' : DiagramOf Value} {s s' : Supply} {v : Value} {c : ClassifierOf Value}

theorem keyOf?_eq_none (h : Arranged d s) {id : Value} :
    d.keyOf? id = none ↔ ∀ c ∈ d.classifiers, (id == c.id) = false := by
  unfold DiagramOf.keyOf?
  rw [h.index, List.lookup_eq_none_iff]
  simp [bne]

theorem keyOf?_self (h : Arranged d s) (hc : c ∈ d.classifiers) : d.keyOf? c.id = some c.key := by
  unfold DiagramOf.keyOf?
  rw [h.index]
  exact lookup_self h.apart hc (finds_self (h.classifiers c hc).hashed)

theorem holdsClassifier (h : Arranged d s) (hc : c ∈ d.classifiers) :
    d.holdsClassifier c.id c.key = true := by
  unfold DiagramOf.holdsClassifier
  rw [h.keyOf?_self hc]
  exact beq_self_eq_true _

theorem classifierById?_self (h : Arranged d s) (hc : c ∈ d.classifiers) :
    d.classifierById? c.id = some c := by
  have hkeys : (d.classifiers.map (·.key)).Nodup :=
    List.pairwise_map.mpr (h.increasing.imp Nat.ne_of_lt)
  unfold DiagramOf.classifierById?
  rw [h.keyOf?_self hc, Option.bind_some]
  cases hfound : d.classifiers.find? (·.key == c.key) with
  | none => simpa using List.find?_eq_none.mp hfound c hc
  | some a =>
    have hkey : a.key = c.key := by simpa using List.find?_some hfound
    rw [List.inj_on_of_nodup_map hkeys (List.mem_of_find?_eq_some hfound) hc hkey]

/-- A relationship that is about to be made has a new key. -/
theorem holdsRelationship_born (h : Arranged d s) : d.holdsRelationship s.born = false := by
  rw [← Bool.not_eq_true, DiagramOf.holdsRelationship, List.any_eq_true]
  intro hgiven
  obtain ⟨e, he, hkey⟩ := hgiven
  obtain ⟨r, rfl, hr⟩ := isRelationship_iff.mp hkey
  exact Nat.ne_of_lt (h.bornRelationships r (DiagramOf.mem_relationships.mpr he)) hr

end Arranged

theorem classifierById?_mem {d : DiagramOf Value} {id : Value} {c : ClassifierOf Value}
    (h : d.classifierById? id = some c) : c ∈ d.classifiers := by
  obtain ⟨key, -, hfound⟩ := Option.bind_eq_some_iff.mp h
  exact List.mem_of_find?_eq_some hfound

/-! ## Every step keeps the invariant -/

section Steps

variable {d d' : DiagramOf Value} {s s' : Supply} {v : Value}

theorem ClassifierStep.arranged (h : ClassifierStep d s v d' s') (ha : Arranged d s)
    (hnone : d.relationships = []) :
    Arranged d' s' ∧ d'.relationships = [] ∧ SameHeader d d' := by
  cases h with
  | skipped sort => exact ⟨ha, hnone, rfl⟩
  | @added fields c c' s' sort shown enrolled hashed free =>
    obtain ⟨hkey, hborn⟩ := enrolClassifier_born enrolled
    have hnone' : DiagramOf.relationships { d with
        elements := d.elements ++ [.classifier c'], index := d.index ++ [(c'.id, c'.key)] } = [] := by
      rw [relationships_append_classifier, hnone]
    refine ⟨?_, hnone', rfl⟩
    constructor
    all_goals simp only [hnone', classifiers_append_classifier, List.not_mem_nil, false_implies,
      implies_true, List.mem_append, List.mem_singleton]
    · rw [ha.elements, hnone]
      simp
    · rw [ha.index]
      simp
    · rintro a (hm | rfl)
      · exact ha.classifiers a hm
      · exact shown.settled enrolled hashed
    · refine List.pairwise_append.mpr ⟨ha.apart, List.pairwise_singleton _ _, fun a hm b hb => ?_⟩
      rw [List.mem_singleton.mp hb]
      exact ha.keyOf?_eq_none.mp free a hm
    · refine List.pairwise_append.mpr ⟨ha.increasing, List.pairwise_singleton _ _,
        fun a hm b hb => ?_⟩
      rw [List.mem_singleton.mp hb, hkey]
      exact ha.bornClassifiers a hm
    · rintro a (hm | rfl)
      · have := ha.bornClassifiers a hm
        omega
      · omega

theorem RelationshipStep.arranged (h : RelationshipStep d s v d' s') (ha : Arranged d s) :
    Arranged d' s' ∧ SameHeader d d' := by
  cases h with
  | skipped sort => exact ⟨ha, rfl⟩
  | @added fields r r' s' sort shown enrolled source target free =>
    obtain ⟨hkey, hborn⟩ := enrolRelationship_born enrolled
    have hends : r'.source = r.source ∧ r'.target = r.target := by
      cases enrolled
      exact ⟨rfl, rfl⟩
    refine ⟨?_, rfl⟩
    constructor
    all_goals simp only [classifiers_append_relationship, relationships_append_relationship,
      List.mem_append, List.mem_singleton]
    · rw [ha.elements]
      simp
    · exact ha.index
    · exact ha.classifiers
    · exact ha.apart
    · exact ha.increasing
    · intro a hm
      have := ha.bornClassifiers a hm
      omega
    · rintro a (hm | rfl)
      · exact ha.relationships a hm
      · exact shown.settled enrolled
    · rintro a (hm | rfl)
      · exact ha.sources a hm
      · obtain ⟨id, c, -, -, hfound, hc⟩ := shown.source
        exact ⟨c, classifierById?_mem hfound, by rw [hends.1, hc]⟩
    · rintro a (hm | rfl)
      · exact ha.targets a hm
      · obtain ⟨id, c, -, -, hfound, hc⟩ := shown.target
        exact ⟨c, classifierById?_mem hfound, by rw [hends.2, hc]⟩
    · rintro a (hm | rfl)
      · have := ha.bornRelationships a hm
        omega
      · omega

end Steps

/-! ## What a reading leaves behind -/

/-- A header that comes out of reading as it is. -/
structure HeaderSettled (d : DiagramOf Value) : Prop where
  uuid : d.uuid.isTruthy = true
  description : Kept (.str "") d.description
  author : Slot d.author
  version : Slot d.version
  backgroundColor : d.backgroundColor.isTruthy = true

theorem SameHeader.settled {d d' : DiagramOf Value} (h : SameHeader d d') (hd : HeaderSettled d) :
    HeaderSettled d' := by
  rw [h]
  exact ⟨hd.uuid, hd.description, hd.author, hd.version, hd.backgroundColor⟩

theorem isVoid_eq_false {v : Value} : Label.isVoid v = false ↔ v.isTruthy = true := by
  rw [isVoid_value, Bool.not_eq_false']

theorem diagramId_isTruthy {s : Supply} : (Value.str s.diagramId.1).isTruthy = true := by
  rw [str_isTruthy, Supply.diagramId]
  simp

section Reading

variable {d d' : DiagramOf Value} {s s' : Supply} {v : Value} {parts : List Value}
  {fields : List (String × Value)}

theorem HeaderShown.settled (h : HeaderShown fields s d s') : HeaderSettled d where
  uuid := by
    have huuid := congrArg (fun begun => begun.1.uuid) h.begun
    change _ = d.uuid at huuid
    rw [← huuid]
    exact (isVoid_eq_false.mp (DiagramOf.empty_uuid (isVoid_eq_false.mpr diagramId_isTruthy)))
  description := h.description ▸ kept_presentOr
  author := h.author ▸ slot_optional
  version := h.version ▸ slot_optional
  backgroundColor := by
    have hkept : Kept (.str "#FFFFFF") d.backgroundColor := h.backgroundColor ▸ kept_presentOr
    rcases hkept with hkept | hkept
    · exact hkept
    · rw [hkept]
      rfl

theorem arranged_of_empty (helements : d.elements = []) (hindex : d.index = []) : Arranged d s := by
  have hc : d.classifiers = [] := by rw [DiagramOf.classifiers, helements]; rfl
  have hr : d.relationships = [] := by rw [DiagramOf.relationships, helements]; rfl
  constructor <;> simp [helements, hindex, hc, hr]

/-- What every step preserves holds in the end. -/
theorem foldlM_preserves {step : DiagramOf Value → Value → Making Fault (DiagramOf Value)}
    (kept : DiagramOf Value → Supply → Prop)
    (hstep : ∀ {d s v d' s'}, v ∈ parts → Makes (step d v) s d' s' → kept d s → kept d' s')
    (h : Makes (parts.foldlM step d) s d' s') (hd : kept d s) : kept d' s' := by
  induction parts generalizing d s with
  | nil =>
    obtain ⟨rfl, rfl⟩ := makes_pure.mp h
    exact hd
  | cons part parts ih =>
    rw [List.foldlM_cons] at h
    obtain ⟨d₁, s₁, hfirst, hrest⟩ := makes_bind.mp h
    exact ih (fun hv => hstep (List.mem_cons_of_mem _ hv)) hrest (hstep List.mem_cons_self hfirst hd)

theorem classifiers_arranged (h : Makes (parts.foldlM addClassifierElement d) s d' s')
    (ha : Arranged d s) (hnone : d.relationships = []) :
    Arranged d' s' ∧ d'.relationships = [] ∧ SameHeader d d' := by
  refine foldlM_preserves
    (fun d₁ s₁ => Arranged d₁ s₁ ∧ d₁.relationships = [] ∧ SameHeader d d₁) ?_ h ⟨ha, hnone, rfl⟩
  rintro d₁ s₁ v d₂ s₂ - hmade ⟨ha₁, hnone₁, hsame₁⟩
  obtain ⟨ha₂, hnone₂, hsame₂⟩ := (makes_addClassifierElement.mp hmade).arranged ha₁ hnone₁
  exact ⟨ha₂, hnone₂, hsame₁.trans hsame₂⟩

theorem relationships_arranged (h : Makes (parts.foldlM addRelationshipElement d) s d' s')
    (ha : Arranged d s) : Arranged d' s' ∧ SameHeader d d' := by
  refine foldlM_preserves (fun d₁ s₁ => Arranged d₁ s₁ ∧ SameHeader d d₁) ?_ h ⟨ha, rfl⟩
  rintro d₁ s₁ v d₂ s₂ - hmade ⟨ha₁, hsame₁⟩
  obtain ⟨ha₂, hsame₂⟩ := (makes_addRelationshipElement.mp hmade).arranged ha₁
  exact ⟨ha₂, hsame₁.trans hsame₂⟩

theorem arranged_of_read (h : Makes (read v) s d s') : HeaderSettled d ∧ Arranged d s' := by
  obtain ⟨fields, parts, header, d₁, s₀, s₁, -, -, shown, hclassifiers, hrelationships⟩ :=
    makes_read.mp h
  have hnone : header.relationships = [] := by
    unfold DiagramOf.relationships
    rw [shown.elements]
    rfl
  obtain ⟨ha₁, -, hsame₁⟩ :=
    classifiers_arranged hclassifiers (arranged_of_empty shown.elements shown.index) hnone
  obtain ⟨ha, hsame⟩ := relationships_arranged hrelationships ha₁
  exact ⟨(hsame₁.trans hsame).settled shown.settled, ha⟩

end Reading

/-! ## Settled diagrams are restored -/

/-- A diagram whose document is read without any conversion. -/
structure Settled (d : DiagramOf Value) : Prop extends HeaderSettled d where
  classifiers : ∀ c ∈ d.classifiers, ClassifierSettled c
  apart : (d.classifiers.map (·.id)).Pairwise fun a b => (b == a) = false
  relationships : ∀ r ∈ d.relationships, RelationshipSettled r
  sources : ∀ r ∈ d.relationships, ∃ c ∈ d.classifiers, c.id = r.source.id
  targets : ∀ r ∈ d.relationships, ∃ c ∈ d.classifiers, c.id = r.target.id

theorem Arranged.settled {d : DiagramOf Value} {s : Supply} (h : Arranged d s)
    (hheader : HeaderSettled d) : Settled d where
  toHeaderSettled := hheader
  classifiers := h.classifiers
  apart := List.pairwise_map.mpr h.apart
  relationships := h.relationships
  sources r hr := by
    obtain ⟨c, hc, hs⟩ := h.sources r hr
    exact ⟨c, hc, congrArg EndpointOf.id hs⟩
  targets r hr := by
    obtain ⟨c, hc, ht⟩ := h.targets r hr
    exact ⟨c, hc, congrArg EndpointOf.id ht⟩

/-- Both classifiers differ in their keys only. -/
def SameClassifier (c c' : ClassifierOf Value) : Prop := c' = { c with key := c'.key }

/-- The relationship, with a key of its own, between classifiers that have the ids of its ends. -/
structure Rejoined (cs : List (ClassifierOf Value)) (r r' : RelationshipOf Value) : Prop where
  source : ∃ c ∈ cs, c.id = r.source.id ∧ r'.source = c.toEndpoint
  target : ∃ c ∈ cs, c.id = r.target.id ∧ r'.target = c.toEndpoint
  rest : r' = { r with key := r'.key, source := r'.source, target := r'.target }

/-- The diagram with new keys and with its classifiers first. -/
structure Restores (d d' : DiagramOf Value) : Prop where
  header : SameHeader d d'
  elements : d'.elements = d'.classifiers.map .classifier ++ d'.relationships.map .relationship
  classifiers : List.Forall₂ SameClassifier d.classifiers d'.classifiers
  relationships : List.Forall₂ (Rejoined d'.classifiers) d.relationships d'.relationships

section Restoring

variable {d d' : DiagramOf Value} {s s' : Supply} {es : List (ElementOf Value)}

theorem empty_of_isTruthy {name description u : Value} {author version : Option Value}
    (h : u.isTruthy = true) : DiagramOf.empty name description author version (some u) s =
      ({ uuid := u, name, description, author, version, backgroundColor := .str "#FFFFFF" }, s) := by
  have hgiven : (some u).filter (fun u => !Label.isVoid u) = some u := by
    simp [isVoid_value, h]
  unfold DiagramOf.empty
  rw [hgiven]
  rfl

theorem enrolRelationship_of_isTruthy {r : RelationshipOf Value} (hid : r.id.isTruthy = true)
    (hname : r.name.isTruthy = true) :
    s.enrolRelationship r = ({ r with key := s.born }, { s with born := s.born + 1 }) := by
  unfold Supply.enrolRelationship Supply.idOr
  rw [isVoid_value, isVoid_value, hid, hname]
  rfl

theorem HeaderSettled.slot_uuid (h : HeaderSettled d) : Slot (some d.uuid) := by
  intro hnull
  have huuid := h.uuid
  rw [Option.some.inj hnull] at huuid
  cases huuid

theorem HeaderSettled.shown (h : HeaderSettled d) : ∃ fields, write d = .object fields ∧
    fields.lookup "elements" = some (.list (d.elements.map writeElement)) ∧
    HeaderShown fields s { d with elements := [], index := [] } s := by
  refine ⟨_, rfl, rfl, ?_⟩
  exact {
    name := rfl
    description := presentOr_of_kept h.description rfl
    author := optional_of_slot h.author rfl
    version := optional_of_slot h.version rfl
    showGrid := rfl
    snapToGrid := rfl
    gridSize := rfl
    backgroundColor := presentOr_of_kept (.inl h.backgroundColor) rfl
    begun := by
      rw [optional_of_slot h.slot_uuid rfl]
      exact empty_of_isTruthy h.uuid
    elements := rfl
    index := rfl }

theorem ClassifierSettled.step {c : ClassifierOf Value} (h : ClassifierSettled c) (s : Supply)
    (free : d.keyOf? c.id = none) :
    ClassifierStep d s (writeElement (.classifier c)) { d with
      elements := d.elements ++ [.classifier { c with key := s.born }]
      index := d.index ++ [(c.id, s.born)] } { s with born := s.born + 1 } :=
  .added rfl h.shown (enrolClassifier_of_isTruthy h.id) h.hashed free

theorem RelationshipSettled.step {r : RelationshipOf Value} {a b : ClassifierOf Value}
    (h : RelationshipSettled r) (hd : Arranged d s) (ha : a ∈ d.classifiers)
    (hb : b ∈ d.classifiers) (hs : a.id = r.source.id) (ht : b.id = r.target.id) :
    RelationshipStep d s (writeElement (.relationship r)) { d with
      elements := d.elements ++
        [.relationship { r with key := s.born, source := a.toEndpoint, target := b.toEndpoint }] }
      { s with born := s.born + 1 } := by
  have hshown := h.shown (hs ▸ (hd.classifiers a ha).hashed) (hs ▸ hd.classifierById?_self ha)
    (ht ▸ (hd.classifiers b hb).hashed) (ht ▸ hd.classifierById?_self hb)
  exact .added rfl hshown (enrolRelationship_of_isTruthy h.id h.name) (hd.holdsClassifier ha)
    (hd.holdsClassifier hb) hd.holdsRelationship_born

/-- Reading the classifiers of a settled diagram goes through, and skips the relationships. -/
theorem classifiers_restored (ha : Arranged d s) (hnone : d.relationships = [])
    (settled : ∀ c ∈ es.filterMap (·.classifier?), ClassifierSettled c)
    (apart : ((d.classifiers ++ es.filterMap (·.classifier?)).map (·.id)).Pairwise
      fun a b => (b == a) = false) :
    ∃ d' s', Makes ((es.map writeElement).foldlM addClassifierElement d) s d' s' ∧
      s'.drawn = s.drawn ∧ ∃ cs, d'.classifiers = d.classifiers ++ cs ∧
        List.Forall₂ SameClassifier (es.filterMap (·.classifier?)) cs := by
  induction es generalizing d s with
  | nil => exact ⟨d, s, makes_pure.mpr ⟨rfl, rfl⟩, rfl, [], (List.append_nil _).symm, .nil⟩
  | cons e es ih =>
    cases e with
    | relationship r =>
      obtain ⟨d', s', hrest, hdrawn, hcs⟩ := ih ha hnone settled apart
      refine ⟨d', s', ?_, hdrawn, hcs⟩
      exact makes_bind.mpr ⟨d, s, makes_addClassifierElement.mpr (.skipped rfl), hrest⟩
    | classifier c =>
      have hcons : (ElementOf.classifier c :: es).filterMap (·.classifier?) =
        c :: es.filterMap (·.classifier?) := rfl
      rw [hcons] at settled apart ⊢
      have hfree : d.keyOf? c.id = none := by
        refine ha.keyOf?_eq_none.mpr fun a hm => ?_
        rw [List.map_append] at apart
        exact (List.pairwise_append.mp apart).2.2 _ (List.mem_map_of_mem hm) _ List.mem_cons_self
      have hstep := (settled c List.mem_cons_self).step s hfree
      obtain ⟨ha₁, hnone₁, -⟩ := hstep.arranged ha hnone
      have ih := ih ha₁ hnone₁ fun a hm => settled a (List.mem_cons_of_mem _ hm)
      rw [classifiers_append_classifier, List.append_assoc] at ih
      obtain ⟨d', s', hrest, hdrawn, cs, hcs, hsame⟩ := ih (by simpa using apart)
      refine ⟨d', s', ?_, hdrawn, { c with key := s.born } :: cs, ?_, .cons rfl hsame⟩
      · exact makes_bind.mpr ⟨_, _, makes_addClassifierElement.mpr hstep, hrest⟩
      · rw [hcs, List.append_assoc]
        rfl

/-- Reading the relationships of a settled diagram goes through, and skips the classifiers. -/
theorem relationships_restored (ha : Arranged d s)
    (settled : ∀ r ∈ es.filterMap (·.relationship?), RelationshipSettled r)
    (sources : ∀ r ∈ es.filterMap (·.relationship?), ∃ c ∈ d.classifiers, c.id = r.source.id)
    (targets : ∀ r ∈ es.filterMap (·.relationship?), ∃ c ∈ d.classifiers, c.id = r.target.id) :
    ∃ d' s', Makes ((es.map writeElement).foldlM addRelationshipElement d) s d' s' ∧
      s'.drawn = s.drawn ∧ d'.classifiers = d.classifiers ∧
        ∃ rs, d'.relationships = d.relationships ++ rs ∧
          List.Forall₂ (Rejoined d.classifiers) (es.filterMap (·.relationship?)) rs := by
  induction es generalizing d s with
  | nil => exact ⟨d, s, makes_pure.mpr ⟨rfl, rfl⟩, rfl, rfl, [], (List.append_nil _).symm, .nil⟩
  | cons e es ih =>
    cases e with
    | classifier c =>
      obtain ⟨d', s', hrest, hdrawn, hrs⟩ := ih ha settled sources targets
      refine ⟨d', s', ?_, hdrawn, hrs⟩
      exact makes_bind.mpr ⟨d, s, makes_addRelationshipElement.mpr (.skipped rfl), hrest⟩
    | relationship r =>
      obtain ⟨a, hm, hs⟩ := sources r List.mem_cons_self
      obtain ⟨b, hm', ht⟩ := targets r List.mem_cons_self
      have hstep := (settled r List.mem_cons_self).step ha hm hm' hs ht
      obtain ⟨ha₁, -⟩ := hstep.arranged ha
      have ih := ih ha₁
      rw [classifiers_append_relationship] at ih
      obtain ⟨d', s', hrest, hdrawn, hclassifiers, rs, hrs, hsame⟩ := ih
        (fun a hr => settled a (List.mem_cons_of_mem _ hr))
        (fun a hr => sources a (List.mem_cons_of_mem _ hr))
        (fun a hr => targets a (List.mem_cons_of_mem _ hr))
      rw [relationships_append_relationship, List.append_assoc] at hrs
      refine ⟨d', s', ?_, hdrawn, hclassifiers, _, hrs, .cons ⟨?_, ?_, rfl⟩ hsame⟩
      · exact makes_bind.mpr ⟨_, _, makes_addRelationshipElement.mpr hstep, hrest⟩
      · exact ⟨a, hm, hs, rfl⟩
      · exact ⟨b, hm', ht, rfl⟩

theorem exists_of_forall₂ {α β : Type} {related : α → β → Prop} {xs : List α} {ys : List β} {y : β}
    (h : List.Forall₂ related xs ys) (hy : y ∈ ys) : ∃ x ∈ xs, related x y := by
  induction h with
  | nil => cases hy
  | cons hxy _ ih =>
    rcases List.mem_cons.mp hy with rfl | hy
    · exact ⟨_, List.mem_cons_self, hxy⟩
    · obtain ⟨x, hx, hxy⟩ := ih hy
      exact ⟨x, List.mem_cons_of_mem _ hx, hxy⟩

theorem map_eq_of_forall₂ {α β γ : Type} {f : α → γ} {g : β → γ} {related : α → β → Prop}
    {xs : List α} {ys : List β} (h : List.Forall₂ related xs ys)
    (hf : ∀ x y, related x y → g y = f x) : ys.map g = xs.map f := by
  induction h with
  | nil => rfl
  | cons hxy _ ih => rw [List.map_cons, List.map_cons, hf _ _ hxy, ih]

theorem SameClassifier.id_eq {c c' : ClassifierOf Value} (h : SameClassifier c c') : c'.id = c.id := by
  rw [h]

/-- An id that was there is there again. -/
theorem exists_of_sameClassifier {cs cs' : List (ClassifierOf Value)} {id : Value}
    (h : List.Forall₂ SameClassifier cs cs') (hid : ∃ c ∈ cs, c.id = id) : ∃ c ∈ cs', c.id = id := by
  rw [← List.mem_map] at hid ⊢
  rw [map_eq_of_forall₂ h fun _ _ => SameClassifier.id_eq]
  exact hid

/-- A settled diagram is restored from its document, and nothing is drawn. -/
theorem Settled.restored (h : Settled d) (s : Supply) :
    ∃ d' s', Makes (read (write d)) s d' s' ∧ s'.drawn = s.drawn ∧ Restores d d' := by
  obtain ⟨fields, hwrite, helements, hshown⟩ := h.toHeaderSettled.shown (s := s)
  have ha : Arranged { d with elements := [], index := [] } s := arranged_of_empty rfl rfl
  obtain ⟨d₁, s₁, hfold₁, hdrawn₁, cs, hcs, hsame⟩ :=
    classifiers_restored ha rfl h.classifiers h.apart
  obtain ⟨ha₁, hnone₁, hheader₁⟩ := classifiers_arranged hfold₁ ha rfl
  have hcs : d₁.classifiers = cs := hcs
  rw [← hcs] at hsame
  have hsources : ∀ r ∈ d.relationships, ∃ c ∈ d₁.classifiers, c.id = r.source.id :=
    fun r hr => exists_of_sameClassifier hsame (h.sources r hr)
  have htargets : ∀ r ∈ d.relationships, ∃ c ∈ d₁.classifiers, c.id = r.target.id :=
    fun r hr => exists_of_sameClassifier hsame (h.targets r hr)
  obtain ⟨d', s', hfold₂, hdrawn₂, hclassifiers, rs, hrs, hjoined⟩ :=
    relationships_restored ha₁ h.relationships hsources htargets
  obtain ⟨ha', hheader₂⟩ := relationships_arranged hfold₂ ha₁
  rw [hnone₁, List.nil_append] at hrs
  have hparts : partsOf (valueOr fields "elements" (.list [])) = .ok (d.elements.map writeElement) := by
    unfold valueOr
    rw [helements]
    rfl
  refine ⟨d', s', ?_, hdrawn₂.trans hdrawn₁, ?_, ha'.elements, ?_, ?_⟩
  · exact makes_read.mpr ⟨fields, _, _, d₁, s, s₁, hwrite, hparts, hshown, hfold₁, hfold₂⟩
  · exact hheader₁.trans hheader₂
  · rw [hclassifiers]
    exact hsame
  · rw [hclassifiers, hrs]
    exact hjoined

/-- Classifiers before relationships, either in the order in which they stood. -/
def parted {τ : Type} (d : DiagramOf τ) : DiagramOf τ :=
  { d with elements := d.classifiers.map .classifier ++ d.relationships.map .relationship }

theorem SameClassifier.write_eq {c c' : ClassifierOf Value} (h : SameClassifier c c') :
    writeElement (.classifier c') = writeElement (.classifier c) := by
  rw [h]
  rfl

/-- A document names the ends of a relationship by id, so it does not show that they are new. -/
theorem Rejoined.write_eq {cs : List (ClassifierOf Value)} {r r' : RelationshipOf Value}
    (h : Rejoined cs r r') : writeElement (.relationship r') = writeElement (.relationship r) := by
  obtain ⟨a, -, hs, hsource⟩ := h.source
  obtain ⟨b, -, ht, htarget⟩ := h.target
  have hs' : r'.source.id = r.source.id := by
    rw [hsource, ← hs]
    rfl
  have ht' : r'.target.id = r.target.id := by
    rw [htarget, ← ht]
    rfl
  rw [h.rest]
  simp only [writeElement, relationshipFields, hs', ht']

theorem Restores.write_eq (h : Restores d d') : write d' = write (parted d) := by
  have hclassifiers : (d'.classifiers.map .classifier).map writeElement =
      (d.classifiers.map .classifier).map writeElement := by
    rw [List.map_map, List.map_map]
    exact map_eq_of_forall₂ h.classifiers fun _ _ => SameClassifier.write_eq
  have hrelationships : (d'.relationships.map .relationship).map writeElement =
      (d.relationships.map .relationship).map writeElement := by
    rw [List.map_map, List.map_map]
    exact map_eq_of_forall₂ h.relationships fun _ _ => Rejoined.write_eq
  have helements : d'.elements.map writeElement = (parted d).elements.map writeElement := by
    rw [h.elements, parted, List.map_append, List.map_append, hclassifiers, hrelationships]
  rw [h.header, write, write, helements]
  rfl

end Restoring

/-! ## Reading and writing again -/

/-- A diagram as reading leaves it is written, read and written again as the same document. -/
theorem Arranged.written_again {d : DiagramOf Value} {s : Supply} (h : Arranged d s)
    (hheader : HeaderSettled d) (t : Supply) :
    ∃ d' t', (read (write d)).run.run t = (.ok d', t') ∧ t'.drawn = t.drawn ∧ write d' = write d := by
  obtain ⟨d', t', hread, hdrawn, hrestores⟩ := (h.settled hheader).restored t
  refine ⟨d', t', hread, hdrawn, ?_⟩
  have hparted : parted d = d := by
    rw [parted, ← h.elements]
  rw [hrestores.write_eq, hparted]

/-- What is read from any document can be written and read for ever: the second reading draws no
identifier, and what it gives is written as the same document. -/
theorem write_read_stable {doc : Value} {d : DiagramOf Value} {s s' : Supply}
    (h : (read doc).run.run s = (.ok d, s')) (t : Supply) :
    ∃ d' t', (read (write d)).run.run t = (.ok d', t') ∧ t'.drawn = t.drawn ∧
      write d' = write d := by
  obtain ⟨hheader, ha⟩ := arranged_of_read h
  exact ha.written_again hheader t

/-- A relationship before its only end, which it names by another sort of one. -/
theorem write_read_stable_handwritten :
    let doc : Value := .object [("name", .str "shapes"), ("author", .null), ("elements", .list [
      .object [("element_type", .str "relationship"), ("source_id", .int 1), ("target_id", .int 1),
        ("kind", .str "dependency")],
      .object [("name", .str "Shape"), ("id", .bool true)]])]
    ∃ d s', (read doc).run.run {} = (.ok d, s') ∧ s'.drawn = 2 ∧
      ∃ d' t', (read (write d)).run.run {} = (.ok d', t') ∧ t'.drawn = 0 ∧ write d' = write d := by
  intro doc
  obtain ⟨d, s', hread, hdrawn⟩ : ∃ d s', (read doc).run.run {} = (.ok d, s') ∧ s'.drawn = 2 :=
    ⟨_, _, rfl, rfl⟩
  exact ⟨d, s', hread, hdrawn, write_read_stable hread {}⟩

end ClassAtlas.Document
