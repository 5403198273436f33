import ClassAtlas.Diagram.Supply
import Mathlib.Data.List.Nodup

/-! # The element list and the index stay in step

A diagram keeps its classifiers twice: among its elements in order, and in an index by id. Calls change
both, and a call may speak of any object whatever: one that is not there, one that was taken out before,
a twin under a used id. Objects are told apart by key. All that is asked of a run is that a classifier
keeps its id and a relationship its two ends; everything else of an element may change between calls. -/

namespace ClassAtlas

variable {τ : Type}

/-! ## Runs -/

/-- A call of the interface through which elements come and go. -/
inductive Call (τ : Type) where
  | addClassifier (c : ClassifierOf τ)
  | removeClassifier (c : ClassifierOf τ)
  | addRelationship (r : RelationshipOf τ)
  | removeRelationship (r : RelationshipOf τ)

/-- A change to a diagram that may be refused; what it did before a refusal stays done. -/
abbrev Changing (τ α : Type) := ExceptT Refusal (StateM (DiagramOf τ)) α

/-- What a diagram makes of a call: the new diagram and the relationships that went with a classifier. -/
def DiagramOf.respond [Label τ] (d : DiagramOf τ) :
    Call τ → Except Refusal (DiagramOf τ × List (RelationshipOf τ))
  | .addClassifier c => (d.addClassifier c).map (·, [])
  | .removeClassifier c => d.removeClassifier c
  | .addRelationship r => (d.addRelationship r).map (·, [])
  | .removeRelationship r => (d.removeRelationship r).map (·, [])

/-- Makes a call. -/
def Call.make [Label τ] (call : Call τ) : Changing τ (List (RelationshipOf τ)) := do
  let (d, cascaded) ← liftM ((← get).respond call)
  set d
  return cascaded

/-- The object that a call speaks of. -/
def Call.element : Call τ → ElementOf τ
  | addClassifier c | removeClassifier c => .classifier c
  | addRelationship r | removeRelationship r => .relationship r

/-- The answer to a call, and the diagram it leaves behind. -/
def DiagramOf.call [Label τ] (d : DiagramOf τ) (call : Call τ) :
    Except Refusal (List (RelationshipOf τ)) × DiagramOf τ :=
  call.make.run.run d

theorem DiagramOf.call_eq [Label τ] (d : DiagramOf τ) (call : Call τ) :
    d.call call = match d.respond call with
      | .ok (d', cascaded) => (.ok cascaded, d')
      | .error refusal => (.error refusal, d) := by
  show (do
    let (d', cascaded) ← (liftM (d.respond call) : Changing τ _)
    set d'
    return cascaded : Changing τ _).run.run d = _
  cases d.respond call with
  | ok answer => rfl
  | error refusal => rfl

/-- What happens in a run: a call, or new contents for an object, in the diagram or not. -/
inductive Event (τ : Type) where
  | call (call : Call τ)
  | change (e : ElementOf τ)

/-- The object that an event speaks of. -/
def Event.element : Event τ → ElementOf τ
  | call c => c.element
  | change e => e

/-- An element after the contents of an object were changed. -/
def ElementOf.update : ElementOf τ → ElementOf τ → ElementOf τ
  | classifier c => withClassifier c
  | relationship r => withRelationship r

def DiagramOf.after [Label τ] (d : DiagramOf τ) : Event τ → DiagramOf τ
  | .call c => (d.call c).2
  | .change e => d.mapElements e.update

/-- The id of each classifier and the ends of each relationship, which last as long as the object. -/
structure Identity (τ : Type) where
  id : Nat → τ
  source : Nat → Nat
  target : Nat → Nat

/-- An object as it is: a classifier under its own id, a relationship between its own ends. -/
def Identity.Admits (w : Identity τ) : ElementOf τ → Prop
  | .classifier c => c.id = w.id c.key
  | .relationship r => r.source.key = w.source r.key ∧ r.target.key = w.target r.key ∧
      r.source.id = w.id r.source.key ∧ r.target.id = w.id r.target.key

/-! ## What calls do to the elements -/

/-- Whether the element is a relationship with an end at the classifier of this key. -/
def ElementOf.endsAt (key : Nat) : ElementOf τ → Bool
  | classifier _ => false
  | relationship r => r.source.key == key || r.target.key == key

/-- Whether a call finds the elements it needs, and no element in its way. -/
def Call.Allowed [Label τ] (es : List (ElementOf τ)) : Call τ → Prop
  | addClassifier c => ∀ c', .classifier c' ∈ es → (c'.id == c.id) = false
  | removeClassifier c => ∃ c', .classifier c' ∈ es ∧ c'.key = c.key
  | addRelationship r => (∃ c, .classifier c ∈ es ∧ c.key = r.source.key) ∧
      (∃ c, .classifier c ∈ es ∧ c.key = r.target.key) ∧
      ¬ ∃ r', .relationship r' ∈ es ∧ r'.key = r.key
  | removeRelationship r => ∃ r', .relationship r' ∈ es ∧ r'.key = r.key

/-- The elements after a call. -/
def Call.outcome (es : List (ElementOf τ)) : Call τ → List (ElementOf τ)
  | addClassifier c => es ++ [.classifier c]
  | removeClassifier c => es.filter fun e => !(e.isClassifier c.key || e.endsAt c.key)
  | addRelationship r => es ++ [.relationship r]
  | removeRelationship r => es.filter fun e => !e.isRelationship r.key

/-- The relationships that a call takes along. -/
def Call.cascade (es : List (ElementOf τ)) : Call τ → List (RelationshipOf τ)
  | removeClassifier c => (es.filter (·.endsAt c.key)).filterMap (·.relationship?)
  | _ => []

/-- The element list and the index agree. -/
structure DiagramOf.Consistent [Label τ] (d : DiagramOf τ) : Prop where
  /-- No object stands in the diagram twice. -/
  distinct : d.elements.Pairwise fun a b => a.isSame b = false
  /-- An id leads to a classifier exactly when that classifier stands in the diagram and bears it. -/
  indexed : ∀ id key, d.keyOf? id = some key ↔
    ∃ c, .classifier c ∈ d.elements ∧ c.key = key ∧ (c.id == id) = true
  /-- Both ends of a relationship stand before it. -/
  ordered : ∀ before r after, d.elements = before ++ .relationship r :: after →
    (∃ c, .classifier c ∈ before ∧ c.key = r.source.key) ∧
      ∃ c, .classifier c ∈ before ∧ c.key = r.target.key

/-! ## Keys -/

/-- The keys of the classifiers among some elements. -/
def classifierKeys (es : List (ElementOf τ)) : List Nat :=
  (es.filterMap (·.classifier?)).map (·.key)

/-- The keys of the relationships among some elements. -/
def relationshipKeys (es : List (ElementOf τ)) : List Nat :=
  (es.filterMap (·.relationship?)).map (·.key)

section Keys

variable {es fs : List (ElementOf τ)} {c : ClassifierOf τ} {r : RelationshipOf τ} {key : Nat}

@[simp] theorem classifierKeys_nil : classifierKeys ([] : List (ElementOf τ)) = [] := rfl

@[simp] theorem classifierKeys_classifier :
    classifierKeys (.classifier c :: es) = c.key :: classifierKeys es := rfl

@[simp] theorem classifierKeys_relationship :
    classifierKeys (.relationship r :: es) = classifierKeys es := rfl

@[simp] theorem classifierKeys_append :
    classifierKeys (es ++ fs) = classifierKeys es ++ classifierKeys fs := by
  simp [classifierKeys]

@[simp] theorem relationshipKeys_nil : relationshipKeys ([] : List (ElementOf τ)) = [] := rfl

@[simp] theorem relationshipKeys_classifier :
    relationshipKeys (.classifier c :: es) = relationshipKeys es := rfl

@[simp] theorem relationshipKeys_relationship :
    relationshipKeys (.relationship r :: es) = r.key :: relationshipKeys es := rfl

@[simp] theorem relationshipKeys_append :
    relationshipKeys (es ++ fs) = relationshipKeys es ++ relationshipKeys fs := by
  simp [relationshipKeys]

theorem mem_classifierKeys :
    key ∈ classifierKeys es ↔ ∃ c, .classifier c ∈ es ∧ c.key = key := by
  induction es with
  | nil => simp
  | cons e es ih => cases e <;> simp [ih, or_and_right, exists_or, @eq_comm _ key]

theorem mem_relationshipKeys :
    key ∈ relationshipKeys es ↔ ∃ r, .relationship r ∈ es ∧ r.key = key := by
  induction es with
  | nil => simp
  | cons e es ih => cases e <;> simp [ih, or_and_right, exists_or, @eq_comm _ key]

@[simp] theorem isClassifier_classifier : (ElementOf.classifier c).isClassifier key = (c.key == key) :=
  rfl

@[simp] theorem isClassifier_relationship : (ElementOf.relationship r).isClassifier key = false := rfl

@[simp] theorem isRelationship_classifier : (ElementOf.classifier c).isRelationship key = false := rfl

@[simp] theorem isRelationship_relationship :
    (ElementOf.relationship r).isRelationship key = (r.key == key) := rfl

@[simp] theorem endsAt_classifier : (ElementOf.classifier c).endsAt key = false := rfl

@[simp] theorem endsAt_relationship :
    (ElementOf.relationship r).endsAt key = (r.source.key == key || r.target.key == key) := rfl

theorem DiagramOf.mem_classifiers {d : DiagramOf τ} :
    c ∈ d.classifiers ↔ .classifier c ∈ d.elements := by
  rw [DiagramOf.classifiers, List.mem_filterMap]
  constructor
  · intro hgiven
    obtain ⟨e, he, hec⟩ := hgiven
    cases e <;> cases hec
    exact he
  · exact fun he => ⟨_, he, rfl⟩

theorem DiagramOf.mem_relationships {d : DiagramOf τ} :
    r ∈ d.relationships ↔ .relationship r ∈ d.elements := by
  rw [DiagramOf.relationships, List.mem_filterMap]
  constructor
  · intro hgiven
    obtain ⟨e, he, her⟩ := hgiven
    cases e <;> cases her
    exact he
  · exact fun he => ⟨_, he, rfl⟩

theorem isClassifier_iff {e : ElementOf τ} :
    e.isClassifier key = true ↔ ∃ c, e = .classifier c ∧ c.key = key := by
  cases e <;> simp

theorem isRelationship_iff {e : ElementOf τ} :
    e.isRelationship key = true ↔ ∃ r, e = .relationship r ∧ r.key = key := by
  cases e <;> simp

/-- Elements stand once when classifiers and relationships each do. -/
theorem pairwise_isSame (hc : (classifierKeys es).Nodup) (hr : (relationshipKeys es).Nodup) :
    es.Pairwise fun a b => a.isSame b = false := by
  induction es with
  | nil => exact .nil
  | cons e es ih =>
    cases e with
    | classifier c =>
      obtain ⟨hn, hc⟩ := List.nodup_cons.mp hc
      refine .cons (fun b hb => Bool.eq_false_iff.mpr fun h => ?_) (ih hc hr)
      obtain ⟨a, rfl, ha⟩ := isClassifier_iff.mp h
      exact hn (mem_classifierKeys.mpr ⟨a, hb, ha⟩)
    | relationship r =>
      obtain ⟨hn, hr⟩ := List.nodup_cons.mp hr
      refine .cons (fun b hb => Bool.eq_false_iff.mpr fun h => ?_) (ih hc hr)
      obtain ⟨a, rfl, ha⟩ := isRelationship_iff.mp h
      exact hn (mem_relationshipKeys.mpr ⟨a, hb, ha⟩)

theorem classifierKeys_filter {p : ElementOf τ → Bool} {q : Nat → Bool}
    (hp : ∀ c, .classifier c ∈ es → p (.classifier c) = q c.key) :
    classifierKeys (es.filter p) = (classifierKeys es).filter q := by
  induction es with
  | nil => rfl
  | cons e es ih =>
    have ih := ih fun c hc => hp c (List.mem_cons_of_mem _ hc)
    cases e with
    | classifier c =>
      have hc := hp c List.mem_cons_self
      by_cases hq : q c.key = true
      · rw [List.filter_cons_of_pos (hc.trans hq)]
        simp [hq, ih]
      · rw [List.filter_cons_of_neg (by rwa [hc])]
        simp [hq, ih]
    | relationship r =>
      rw [List.filter_cons]
      split <;> simp [ih]

theorem fallsWith_eq (key : Nat) (e : ElementOf τ) :
    DiagramOf.fallsWith key e = (e.isClassifier key || e.endsAt key) := by
  cases e <;> simp [DiagramOf.fallsWith]

theorem filterMap_filter_endsAt :
    (es.filter (·.endsAt key)).filterMap (·.relationship?) =
      (es.filterMap (·.relationship?)).filter fun r =>
        r.source.key == key || r.target.key == key := by
  induction es with
  | nil => rfl
  | cons e es ih =>
    cases e with
    | classifier c => exact ih
    | relationship r =>
      have hcons : ∀ es : List (ElementOf τ), (ElementOf.relationship r :: es).filterMap
          (·.relationship?) = r :: es.filterMap (·.relationship?) := fun _ => rfl
      rw [hcons, List.filter_cons, List.filter_cons, endsAt_relationship]
      split
      · rw [hcons, ih]
      · exact ih

/-- A relationship stands once, so taking out the first occurrence takes out all. -/
theorem eraseP_isRelationship (h : (relationshipKeys es).Nodup) :
    es.eraseP (·.isRelationship key) = es.filter fun e => !e.isRelationship key := by
  induction es with
  | nil => rfl
  | cons e es ih =>
    cases e with
    | classifier c => exact congrArg (.classifier c :: ·) (ih h)
    | relationship r =>
      obtain ⟨hn, h⟩ := List.nodup_cons.mp h
      rw [List.eraseP_cons, List.filter_cons]
      by_cases hk : r.key = key
      · have hrest : ∀ e ∈ es, (!e.isRelationship key) = true := by
          intro e he
          rw [Bool.not_eq_true', Bool.eq_false_iff]
          intro hr
          obtain ⟨r', rfl, hr'⟩ := isRelationship_iff.mp hr
          exact hn (mem_relationshipKeys.mpr ⟨r', he, hr'.trans hk.symm⟩)
        simp [hk, List.filter_eq_self.mpr hrest]
      · simp [ih h, beq_eq_false_iff_ne.mpr hk]

theorem relationshipKeys_filter_sublist (p : ElementOf τ → Bool) :
    (relationshipKeys (es.filter p)).Sublist (relationshipKeys es) :=
  (List.Sublist.filterMap _ List.filter_sublist).map _

end Keys

/-! ## Ends before relationships -/

/-- Both ends of every relationship are known or stand before it. -/
def Grounded : List Nat → List (ElementOf τ) → Prop
  | _, [] => True
  | known, .classifier c :: rest => Grounded (c.key :: known) rest
  | known, .relationship r :: rest =>
    r.source.key ∈ known ∧ r.target.key ∈ known ∧ Grounded known rest

section Grounded

variable {known known' : List Nat} {es fs : List (ElementOf τ)}

theorem Grounded.mono (h : Grounded known es) (hk : known ⊆ known') : Grounded known' es := by
  induction es generalizing known known' with
  | nil => trivial
  | cons e es ih =>
    cases e with
    | classifier c => exact ih h (List.cons_subset_cons _ hk)
    | relationship r => exact ⟨hk h.1, hk h.2.1, ih h.2.2 hk⟩

theorem Grounded.append (h : Grounded known es) (hf : Grounded (classifierKeys es ++ known) fs) :
    Grounded known (es ++ fs) := by
  induction es generalizing known with
  | nil => exact hf
  | cons e es ih =>
    cases e with
    | classifier c =>
      show Grounded (c.key :: known) (es ++ fs)
      refine ih h (hf.mono ?_)
      rw [classifierKeys_classifier]
      exact List.perm_middle.symm.subset
    | relationship r => exact ⟨h.1, h.2.1, ih h.2.2 hf⟩

/-- Elements may go as long as no relationship stays behind whose end goes. -/
theorem Grounded.filter {p : ElementOf τ → Bool} (lost : Nat → Prop) (h : Grounded known es)
    (hk : ∀ key ∈ known, ¬ lost key → key ∈ known')
    (hc : ∀ c, p (.classifier c) = false → lost c.key)
    (hr : ∀ r, p (.relationship r) = true → ¬ lost r.source.key ∧ ¬ lost r.target.key) :
    Grounded known' (es.filter p) := by
  induction es generalizing known known' with
  | nil => trivial
  | cons e es ih =>
    cases e with
    | classifier c =>
      rw [List.filter_cons]
      split
      · show Grounded (c.key :: known') (es.filter p)
        refine ih h fun key hm hl => ?_
        rcases List.mem_cons.mp hm with rfl | hm
        · exact List.mem_cons_self
        · exact List.mem_cons_of_mem _ (hk key hm hl)
      · rename_i hp
        refine ih h fun key hm hl => ?_
        rcases List.mem_cons.mp hm with rfl | hm
        · exact absurd (hc c (by simpa using hp)) hl
        · exact hk key hm hl
    | relationship r =>
      obtain ⟨hs, ht, h⟩ := h
      rw [List.filter_cons]
      split
      · rename_i hp
        obtain ⟨ns, nt⟩ := hr r hp
        exact ⟨hk _ hs ns, hk _ ht nt, ih h hk⟩
      · exact ih h hk

theorem Grounded.ends_before {before after : List (ElementOf τ)} {r : RelationshipOf τ}
    (h : Grounded known (before ++ .relationship r :: after)) :
    r.source.key ∈ classifierKeys before ++ known ∧ r.target.key ∈ classifierKeys before ++ known := by
  induction before generalizing known with
  | nil => exact ⟨h.1, h.2.1⟩
  | cons e before ih =>
    cases e with
    | classifier c =>
      have h : Grounded (c.key :: known) (before ++ .relationship r :: after) := h
      obtain ⟨hs, ht⟩ := ih h
      rw [classifierKeys_classifier]
      exact ⟨List.perm_middle.subset hs, List.perm_middle.subset ht⟩
    | relationship r' => exact ih h.2.2

end Grounded

/-! ## Changed contents -/

/-- Both are one object, between the same ends. -/
def ElementOf.Agrees : ElementOf τ → ElementOf τ → Prop
  | classifier a, classifier b => a.key = b.key
  | relationship a, relationship b =>
    a.key = b.key ∧ a.source.key = b.source.key ∧ a.target.key = b.target.key
  | _, _ => False

section Changed

variable {f : ElementOf τ → ElementOf τ} {es : List (ElementOf τ)} {known : List Nat}

theorem classifierKeys_map (hf : ∀ e ∈ es, (f e).Agrees e) :
    classifierKeys (es.map f) = classifierKeys es := by
  induction es with
  | nil => rfl
  | cons e es ih =>
    have he := hf e List.mem_cons_self
    have ih := ih fun e he => hf e (List.mem_cons_of_mem _ he)
    rw [List.map_cons]
    cases e <;> cases hfe : f _ <;> simp_all [ElementOf.Agrees]

theorem relationshipKeys_map (hf : ∀ e ∈ es, (f e).Agrees e) :
    relationshipKeys (es.map f) = relationshipKeys es := by
  induction es with
  | nil => rfl
  | cons e es ih =>
    have he := hf e List.mem_cons_self
    have ih := ih fun e he => hf e (List.mem_cons_of_mem _ he)
    rw [List.map_cons]
    cases e <;> cases hfe : f _ <;> simp_all [ElementOf.Agrees]

theorem Grounded.map (h : Grounded known es) (hf : ∀ e ∈ es, (f e).Agrees e) :
    Grounded known (es.map f) := by
  induction es generalizing known with
  | nil => trivial
  | cons e es ih =>
    have he := hf e List.mem_cons_self
    have hes : ∀ e ∈ es, (f e).Agrees e := fun e he => hf e (List.mem_cons_of_mem _ he)
    rw [List.map_cons]
    cases e with
    | classifier c =>
      cases hfe : f (.classifier c) with
      | classifier c' =>
        rw [hfe] at he
        have hkey : c'.key = c.key := he
        rw [Grounded, hkey]
        exact ih h hes
      | relationship r' => rw [hfe] at he; exact he.elim
    | relationship r =>
      cases hfe : f (.relationship r) with
      | classifier c' => rw [hfe] at he; exact he.elim
      | relationship r' =>
        rw [hfe] at he
        obtain ⟨-, hs, ht⟩ := he
        rw [Grounded, hs, ht]
        exact ⟨h.1, h.2.1, ih h.2.2 hes⟩

theorem update_agrees {w : Identity τ} {e old : ElementOf τ} (he : w.Admits e) (ho : w.Admits old) :
    (e.update old).Agrees old := by
  cases e with
  | classifier c =>
    cases old with
    | classifier a =>
      by_cases hk : a.key = c.key <;>
        simp [ElementOf.update, ElementOf.withClassifier, ElementOf.Agrees, hk]
    | relationship r =>
      refine ⟨rfl, ?_, ?_⟩
      · by_cases hk : r.source.key = c.key <;> simp [hk, ClassifierOf.toEndpoint]
      · by_cases hk : r.target.key = c.key <;> simp [hk, ClassifierOf.toEndpoint]
  | relationship r =>
    cases old with
    | classifier a => exact rfl
    | relationship a =>
      by_cases hk : a.key = r.key
      · obtain ⟨hs, ht, -, -⟩ := he
        obtain ⟨hs', ht', -, -⟩ := ho
        simp [ElementOf.update, ElementOf.withRelationship, ElementOf.Agrees, hk, hs, ht, hs', ht']
      · simp [ElementOf.update, ElementOf.withRelationship, ElementOf.Agrees, hk]

theorem update_admits {w : Identity τ} {e old : ElementOf τ} (he : w.Admits e) (ho : w.Admits old) :
    w.Admits (e.update old) := by
  cases e with
  | classifier c =>
    have hc : c.id = w.id c.key := he
    cases old with
    | classifier a =>
      show (if a.key == c.key then c else a).id = w.id (if a.key == c.key then c else a).key
      split
      · exact hc
      · exact ho
    | relationship r =>
      obtain ⟨hs, ht, is, it⟩ := ho
      refine ⟨?_, ?_, ?_, ?_⟩
      · by_cases hk : r.source.key = c.key <;> simp_all [ClassifierOf.toEndpoint]
      · by_cases hk : r.target.key = c.key <;> simp_all [ClassifierOf.toEndpoint]
      · by_cases hk : r.source.key = c.key <;> simp_all [ClassifierOf.toEndpoint]
      · by_cases hk : r.target.key = c.key <;> simp_all [ClassifierOf.toEndpoint]
  | relationship r =>
    cases old with
    | classifier a => exact ho
    | relationship a =>
      show w.Admits (.relationship (if a.key == r.key then r else a))
      split
      · exact he
      · exact ho

end Changed

/-! ## The invariant -/

/-- What every event preserves. The index is read off the keys, so the two copies are one. -/
structure DiagramOf.Tracked [Label τ] (w : Identity τ) (d : DiagramOf τ) : Prop where
  admitted : ∀ e ∈ d.elements, w.Admits e
  indexed : d.index = (classifierKeys d.elements).map fun key => (w.id key, key)
  apart : (classifierKeys d.elements).Pairwise fun j k => (w.id j == w.id k) = false
  once : (relationshipKeys d.elements).Nodup
  grounded : Grounded [] d.elements

theorem lookup_keys [BEq τ] [PartialEquivBEq τ] {f : Nat → τ} {keys : List Nat}
    (h : keys.Pairwise fun j k => (f j == f k) = false) {id : τ} {key : Nat} :
    (keys.map fun k => (f k, k)).lookup id = some key ↔ key ∈ keys ∧ (id == f key) = true := by
  induction keys with
  | nil => simp
  | cons j keys ih =>
    obtain ⟨hj, h⟩ := List.pairwise_cons.mp h
    rw [List.map_cons, List.lookup_cons]
    by_cases hid : (id == f j) = true
    · simp only [hid, Option.some.injEq, List.mem_cons]
      constructor
      · rintro rfl
        exact ⟨.inl rfl, hid⟩
      · intro hgiven
        obtain ⟨rfl | hm, hk⟩ := hgiven
        · rfl
        · have := BEq.trans (BEq.symm hid) hk
          rw [hj key hm] at this
          contradiction
    · simp only [hid, ih h, List.mem_cons]
      constructor
      · exact fun ⟨hm, hk⟩ => ⟨.inr hm, hk⟩
      · intro hgiven
        obtain ⟨rfl | hm, hk⟩ := hgiven
        · contradiction
        · exact ⟨hm, hk⟩

namespace DiagramOf

variable [Label τ] {w : Identity τ} {d : DiagramOf τ}

theorem Tracked.id_eq (h : d.Tracked w) {c : ClassifierOf τ} (hc : c ∈ d.classifiers) :
    c.id = w.id c.key := h.admitted _ (mem_classifiers.mp hc)

theorem Tracked.keyOf?_eq_some [PartialEquivBEq τ] (h : d.Tracked w) {id : τ} {key : Nat} :
    d.keyOf? id = some key ↔ key ∈ classifierKeys d.elements ∧ (id == w.id key) = true := by
  unfold keyOf?
  rw [h.indexed]
  exact lookup_keys h.apart

theorem Tracked.holdsClassifier [EquivBEq τ] (h : d.Tracked w) (key : Nat) :
    d.holdsClassifier (w.id key) key = true ↔ key ∈ classifierKeys d.elements := by
  rw [DiagramOf.holdsClassifier, beq_iff_eq, h.keyOf?_eq_some]
  exact and_iff_left BEq.rfl

theorem Tracked.keyOf?_isSome [PartialEquivBEq τ] (h : d.Tracked w) {id : τ} :
    (d.keyOf? id).isSome = true ↔
      ∃ key ∈ classifierKeys d.elements, (id == w.id key) = true := by
  simp only [Option.isSome_iff_exists, h.keyOf?_eq_some]

theorem Tracked.nodup [ReflBEq τ] (h : d.Tracked w) : (classifierKeys d.elements).Nodup :=
  h.apart.imp fun {j k} hjk he => by simp [he] at hjk

/-- Within a diagram an id stands for one key only. -/
theorem Tracked.id_beq [EquivBEq τ] (h : d.Tracked w) {j k : Nat}
    (hj : j ∈ classifierKeys d.elements) (hk : k ∈ classifierKeys d.elements) :
    (w.id j == w.id k) = (j == k) := by
  rw [Bool.eq_iff_iff, beq_iff_eq (a := j)]
  constructor
  · intro he
    have hfound := h.keyOf?_eq_some.mpr ⟨hk, he⟩
    rw [h.keyOf?_eq_some.mpr ⟨hj, BEq.rfl⟩] at hfound
    exact Option.some.inj hfound
  · rintro rfl
    exact BEq.rfl

/-- A key stands for one classifier. -/
theorem Tracked.eq_of_key [ReflBEq τ] (h : d.Tracked w) {a b : ClassifierOf τ}
    (ha : a ∈ d.classifiers) (hb : b ∈ d.classifiers) (hk : a.key = b.key) : a = b :=
  List.inj_on_of_nodup_map h.nodup ha hb hk

/-- An id stands for one classifier. -/
theorem Tracked.eq_of_id [EquivBEq τ] (h : d.Tracked w) {a b : ClassifierOf τ}
    (ha : a ∈ d.classifiers) (hb : b ∈ d.classifiers) (hid : a.id = b.id) : a = b := by
  refine h.eq_of_key ha hb (beq_iff_eq.mp ?_)
  rw [← h.id_beq (List.mem_map_of_mem ha) (List.mem_map_of_mem hb), ← h.id_eq ha, ← h.id_eq hb, hid]
  exact BEq.rfl

omit [Label τ] in
theorem holdsRelationship_iff {key : Nat} :
    d.holdsRelationship key = true ↔ ∃ r, .relationship r ∈ d.elements ∧ r.key = key := by
  simp [holdsRelationship, isRelationship_iff]

theorem Tracked.consistent [EquivBEq τ] (h : d.Tracked w) : d.Consistent where
  distinct := pairwise_isSame h.nodup h.once
  indexed id key := by
    rw [h.keyOf?_eq_some, mem_classifierKeys]
    constructor
    · intro hgiven
      obtain ⟨⟨c, hm, rfl⟩, hid⟩ := hgiven
      exact ⟨c, hm, rfl, by rw [h.id_eq (mem_classifiers.mpr hm)]; exact BEq.symm hid⟩
    · intro hgiven
      obtain ⟨c, hm, rfl, hid⟩ := hgiven
      exact ⟨⟨c, hm, rfl⟩, by rw [← h.id_eq (mem_classifiers.mpr hm)]; exact BEq.symm hid⟩
  ordered before r after he := by
    have hg := h.grounded
    rw [he] at hg
    obtain ⟨hs, ht⟩ := hg.ends_before
    rw [List.append_nil] at hs ht
    exact ⟨mem_classifierKeys.mp hs, mem_classifierKeys.mp ht⟩

end DiagramOf

/-! ## One step -/

/-- A call does all of its work or none: it is carried out where it is allowed, and refused elsewhere. -/
inductive Call.Effect [Label τ] (w : Identity τ) (d : DiagramOf τ) (call : Call τ) :
    Except Refusal (List (RelationshipOf τ)) × DiagramOf τ → Prop where
  | done (index : List (τ × Nat)) (allowed : call.Allowed d.elements)
      (tracked : { d with elements := call.outcome d.elements, index }.Tracked w) :
      Effect w d call
        (.ok (call.cascade d.elements), { d with elements := call.outcome d.elements, index })
  | refused (refusal : Refusal) (forbidden : ¬ call.Allowed d.elements) :
      Effect w d call (.error refusal, d)

namespace DiagramOf

variable [Label τ] [EquivBEq τ] {w : Identity τ} {d : DiagramOf τ}

theorem Tracked.addClassifier (h : d.Tracked w) {c : ClassifierOf τ} (hc : c.id = w.id c.key) :
    Call.Effect w d (.addClassifier c) (d.call (.addClassifier c)) := by
  rw [call_eq, respond, DiagramOf.addClassifier]
  cases hid : (d.keyOf? c.id).isSome with
  | true =>
    obtain ⟨key, hk, hid⟩ := h.keyOf?_isSome.mp hid
    have forbidden : ¬ (Call.addClassifier c).Allowed d.elements := by
      intro allowed
      obtain ⟨a, ha, rfl⟩ := mem_classifierKeys.mp hk
      have hfree := allowed a ha
      rw [h.id_eq (mem_classifiers.mpr ha), BEq.comm, hid] at hfree
      contradiction
    cases d.holdsClassifier c.id c.key with
    | true => exact .refused _ forbidden
    | false => exact .refused _ forbidden
  | false =>
    have hnew : ∀ key ∈ classifierKeys d.elements, (w.id key == c.id) = false := by
      intro key hk
      rw [← Bool.not_eq_true, BEq.comm]
      intro he
      rw [h.keyOf?_isSome.mpr ⟨key, hk, he⟩] at hid
      contradiction
    have habsent : ¬ d.holdsClassifier c.id c.key = true := by
      rw [hc, h.holdsClassifier]
      intro hm
      have := hnew _ hm
      rw [← hc, BEq.rfl] at this
      contradiction
    rw [if_neg habsent]
    refine .done _ (fun a ha => ?_) ⟨?_, ?_, ?_, ?_, ?_⟩
    · rw [h.id_eq (mem_classifiers.mpr ha)]
      exact hnew _ (mem_classifierKeys.mpr ⟨a, ha, rfl⟩)
    · intro e he
      rcases List.mem_append.mp he with he | he
      · exact h.admitted e he
      · rw [List.mem_singleton.mp he]
        exact hc
    · simp [Call.outcome, h.indexed, hc]
    · simp only [Call.outcome, classifierKeys_append]
      refine List.pairwise_append.mpr ⟨h.apart, List.pairwise_singleton _ _, ?_⟩
      intro j hj k hk
      rw [List.mem_singleton.mp hk, ← hc]
      exact hnew j hj
    · simpa [Call.outcome] using h.once
    · exact h.grounded.append trivial

theorem Tracked.removeClassifier (h : d.Tracked w) {c : ClassifierOf τ} (hc : c.id = w.id c.key) :
    Call.Effect w d (.removeClassifier c) (d.call (.removeClassifier c)) := by
  rw [call_eq, respond, DiagramOf.removeClassifier]
  have hallowed : (Call.removeClassifier c).Allowed d.elements ↔
      d.holdsClassifier c.id c.key = true := by
    rw [hc, h.holdsClassifier, mem_classifierKeys]
    exact Iff.rfl
  cases hold : d.holdsClassifier c.id c.key with
  | false =>
    refine .refused _ fun allowed => ?_
    rw [hallowed.mp allowed] at hold
    contradiction
  | true =>
    have hin : c.key ∈ classifierKeys d.elements := mem_classifierKeys.mpr (hallowed.mpr hold)
    have helements : (d.elements.filter fun e => !fallsWith c.key e) =
        (Call.removeClassifier c).outcome d.elements := by
      simp only [fallsWith_eq, Call.outcome]
    have hkeys : classifierKeys ((Call.removeClassifier c).outcome d.elements) =
        (classifierKeys d.elements).filter fun key => !(key == c.key) :=
      classifierKeys_filter fun a _ => by simp
    have hcascade : (d.relationships.filter fun r =>
        r.source.key == c.key || r.target.key == c.key) =
          (Call.removeClassifier c).cascade d.elements := filterMap_filter_endsAt.symm
    rw [if_pos rfl, helements, hcascade]
    refine .done _ (hallowed.mpr hold) ⟨?_, ?_, ?_, ?_, ?_⟩
    · exact fun e he => h.admitted e (List.mem_of_mem_filter he)
    · -- The index loses what stands under the id, the elements what has the key: the same entries.
      rw [hkeys, h.indexed, List.filter_map]
      refine congrArg _ (List.filter_congr fun key hk => ?_)
      rw [Function.comp_apply, hc, h.id_beq hk hin]
    · rw [hkeys]
      exact h.apart.filter _
    · exact h.once.sublist (relationshipKeys_filter_sublist _)
    · refine h.grounded.filter (· = c.key) (fun _ hm => (List.not_mem_nil hm).elim) ?_ ?_
      · simp
      · simp

theorem Tracked.addRelationship (h : d.Tracked w) {r : RelationshipOf τ}
    (hr : w.Admits (.relationship r)) :
    Call.Effect w d (.addRelationship r) (d.call (.addRelationship r)) := by
  obtain ⟨-, -, hs, ht⟩ := id hr
  rw [call_eq, respond, DiagramOf.addRelationship]
  have hsource := h.holdsClassifier r.source.key
  have htarget := h.holdsClassifier r.target.key
  rw [← hs, mem_classifierKeys] at hsource
  rw [← ht, mem_classifierKeys] at htarget
  cases hold : d.holdsClassifier r.source.id r.source.key with
  | false =>
    refine .refused _ fun allowed => ?_
    rw [hsource.mpr allowed.1] at hold
    contradiction
  | true =>
    cases hold' : d.holdsClassifier r.target.id r.target.key with
    | false =>
      refine .refused _ fun allowed => ?_
      rw [htarget.mpr allowed.2.1] at hold'
      contradiction
    | true =>
      cases hin : d.holdsRelationship r.key with
      | true => exact .refused _ fun allowed => allowed.2.2 (holdsRelationship_iff.mp hin)
      | false =>
        have hnew : ¬ ∃ r', .relationship r' ∈ d.elements ∧ r'.key = r.key := fun he => by
          rw [holdsRelationship_iff.mpr he] at hin
          contradiction
        refine .done d.index ⟨hsource.mp hold, htarget.mp hold', hnew⟩ ⟨?_, ?_, ?_, ?_, ?_⟩
        · intro e he
          rcases List.mem_append.mp he with he | he
          · exact h.admitted e he
          · rw [List.mem_singleton.mp he]
            exact hr
        · simpa [Call.outcome] using h.indexed
        · simpa [Call.outcome] using h.apart
        · simp only [Call.outcome, relationshipKeys_append]
          refine List.nodup_append.mpr ⟨h.once, List.nodup_singleton _, ?_⟩
          rintro a ha b hb rfl
          rw [List.mem_singleton.mp hb] at ha
          exact hnew (mem_relationshipKeys.mp ha)
        · refine h.grounded.append ⟨?_, ?_, trivial⟩
          · exact List.mem_append_left _ (mem_classifierKeys.mpr (hsource.mp hold))
          · exact List.mem_append_left _ (mem_classifierKeys.mpr (htarget.mp hold'))

omit [EquivBEq τ] in
theorem Tracked.removeRelationship (h : d.Tracked w) {r : RelationshipOf τ} :
    Call.Effect w d (.removeRelationship r) (d.call (.removeRelationship r)) := by
  rw [call_eq, respond, DiagramOf.removeRelationship]
  cases hin : d.holdsRelationship r.key with
  | false =>
    refine .refused _ fun allowed => ?_
    rw [holdsRelationship_iff.mpr allowed] at hin
    contradiction
  | true =>
    have hkeys : classifierKeys ((Call.removeRelationship r).outcome d.elements) =
        classifierKeys d.elements := by
      rw [Call.outcome, classifierKeys_filter (q := fun _ => true) fun _ _ => rfl]
      exact List.filter_eq_self.mpr fun _ _ => rfl
    rw [if_pos rfl, eraseP_isRelationship h.once]
    refine .done d.index (holdsRelationship_iff.mp hin) ⟨?_, ?_, ?_, ?_, ?_⟩
    · exact fun e he => h.admitted e (List.mem_of_mem_filter he)
    · rw [hkeys]
      exact h.indexed
    · rw [hkeys]
      exact h.apart
    · exact h.once.sublist (relationshipKeys_filter_sublist _)
    · exact h.grounded.filter (fun _ => False) (fun _ hm => (List.not_mem_nil hm).elim)
        (fun _ hp => Bool.noConfusion hp) (fun _ _ => ⟨id, id⟩)

theorem Tracked.call (h : d.Tracked w) {call : Call τ} (hc : w.Admits call.element) :
    Call.Effect w d call (d.call call) := by
  cases call with
  | addClassifier c => exact h.addClassifier hc
  | removeClassifier c => exact h.removeClassifier hc
  | addRelationship r => exact h.addRelationship hc
  | removeRelationship r => exact h.removeRelationship

omit [EquivBEq τ] in
theorem Tracked.change (h : d.Tracked w) {e : ElementOf τ} (he : w.Admits e) :
    (d.mapElements e.update).Tracked w := by
  have hagree : ∀ old ∈ d.elements, (e.update old).Agrees old := fun old ho =>
    update_agrees he (h.admitted old ho)
  have hkeys : classifierKeys (d.mapElements e.update).elements = classifierKeys d.elements :=
    classifierKeys_map hagree
  refine ⟨?_, ?_, ?_, ?_, ?_⟩
  · intro e' he'
    obtain ⟨old, ho, rfl⟩ := List.mem_map.mp he'
    exact update_admits he (h.admitted old ho)
  · rw [hkeys]
    exact h.indexed
  · rw [hkeys]
    exact h.apart
  · rw [mapElements, relationshipKeys_map hagree]
    exact h.once
  · exact h.grounded.map hagree

theorem Tracked.after (h : d.Tracked w) {event : Event τ} (he : w.Admits event.element) :
    (d.after event).Tracked w := by
  cases event with
  | change e => exact h.change he
  | call call =>
    cases hanswer : d.call call with
    | mk answer d' =>
      have heffect : Call.Effect w d call (d.call call) := h.call he
      rw [DiagramOf.after, hanswer]
      rw [hanswer] at heffect
      cases heffect with
      | done index allowed tracked => exact tracked
      | refused refusal forbidden => exact h

omit [EquivBEq τ] in
theorem tracked_empty (name description : τ) (author version uuid : Option τ) (s : Supply) :
    (empty name description author version uuid s).1.Tracked w :=
  ⟨fun _ he => (List.not_mem_nil he).elim, rfl, .nil, .nil, trivial⟩

theorem Tracked.run (h : d.Tracked w) {events : List (Event τ)}
    (he : ∀ event ∈ events, w.Admits event.element) : (events.foldl DiagramOf.after d).Tracked w := by
  induction events generalizing d with
  | nil => exact h
  | cons event events ih =>
    exact ih (h.after (he event List.mem_cons_self)) fun e hm => he e (List.mem_cons_of_mem _ hm)

end DiagramOf

/-! ## Every run -/

/-- After every call of every run the list and the index agree. A call is answered exactly when it is
allowed; it then turns the list into its outcome and answers with the relationships taken along. A
refused call leaves list and index alone. -/
theorem run_consistent [Label τ] [EquivBEq τ] (w : Identity τ) (name description : τ)
    (author version uuid : Option τ) (s : Supply) (past : List (Event τ)) (call : Call τ)
    (hpast : ∀ event ∈ past, w.Admits event.element) (hcall : w.Admits call.element) :
    let d := past.foldl DiagramOf.after (DiagramOf.empty name description author version uuid s).1
    (d.call call).2.Consistent ∧
      ((d.call call).1.isOk = true ↔ call.Allowed d.elements) ∧
      (∀ cascaded, (d.call call).1 = .ok cascaded →
        (d.call call).2.elements = call.outcome d.elements ∧ cascaded = call.cascade d.elements) ∧
      ∀ refusal, (d.call call).1 = .error refusal →
        (d.call call).2.elements = d.elements ∧ (d.call call).2.index = d.index := by
  intro d
  have htracked : d.Tracked w :=
    (DiagramOf.tracked_empty name description author version uuid s).run hpast
  have heffect := htracked.call hcall
  generalize d.call call = result at heffect
  cases heffect with
  | done index allowed tracked =>
    refine ⟨tracked.consistent, ⟨fun _ => allowed, fun _ => rfl⟩, ?_, ?_⟩
    · intro cascaded hanswer
      cases hanswer
      exact ⟨rfl, rfl⟩
    · intro refusal hanswer
      cases hanswer
  | refused refusal forbidden =>
    refine ⟨htracked.consistent, ⟨fun h => ?_, fun h => absurd h forbidden⟩, ?_, ?_⟩
    · cases h
    · intro cascaded hanswer
      cases hanswer
    · intro refusal' hanswer
      exact ⟨rfl, rfl⟩

/-- A class without members, named by its id. -/
def bareClass (key : Nat) (id : String) : Classifier :=
  { key, id, name := id, namespaceName := "", kind := .class, isAbstract := false, fields := []
    operations := [], literals := [], declaredSuperclass := none, declaredInterfaces := []
    box := .standard, style := {} }

/-- A relationship of which no more is known than its ends. -/
def bareEdge (key : Nat) (source target : Classifier) (kind : RelationshipKind) : Relationship :=
  { key, id := "e", name := "e", source := source.toEndpoint, target := target.toEndpoint, kind }

/-- A superclass leaves with the edge to it, after a twin was refused and its name was changed. -/
theorem run_consistent_cascade :
    let base := bareClass 0 "a"
    let derived := bareClass 1 "b"
    let w : Identity String := ⟨fun key => if key = 1 then "b" else "a", fun _ => 1, fun _ => 0⟩
    let past : List (Event String) := [
      .call (.addClassifier base), .call (.addClassifier derived),
      .call (.addClassifier (bareClass 3 "a")),
      .call (.addRelationship (bareEdge 0 derived base .inheritance)),
      .change (.classifier { base with name := "Base" })]
    let call : Call String := .removeClassifier base
    let d := past.foldl DiagramOf.after (DiagramOf.empty "shapes" "" none none none {}).1
    (∀ event ∈ past, w.Admits event.element) ∧ w.Admits call.element ∧
      d.elements.length = 3 ∧ (d.call call).2.Consistent ∧
      (d.call call).2.elements = [.classifier derived] := by
  intro base derived w past call d
  have hpast : ∀ event ∈ past, w.Admits event.element := by
    simp [past, w, Event.element, Call.element, Identity.Admits, base, derived, bareClass, bareEdge,
      ClassifierOf.toEndpoint]
  have hcall : w.Admits call.element := rfl
  obtain ⟨hconsistent, -, hdone, -⟩ :=
    run_consistent w "shapes" "" none none none {} past call hpast hcall
  refine ⟨hpast, hcall, rfl, hconsistent, ?_⟩
  rw [(hdone _ rfl).1]
  rfl

end ClassAtlas
