import ClassAtlas.Document.Texts
import ClassAtlas.Proofs.StoredDiagrams

/-! # What a diagram and its copy from a document have in common

Reading the document of a diagram makes a new diagram: other objects in place of the old ones, nothing
where an empty text stood, and all classifiers before all relationships. Objects correspond one to one,
in the order of their sort, and say the same of themselves. The copy holds values in place of texts; the
diagram of the texts that they show is a renewal of the diagram. -/

namespace ClassAtlas.Document

/-! ## Copies and renewals -/

/-- A classifier under another key, its texts as values. -/
def copied (f : Nat → Nat) (c : Classifier) : ClassifierOf Value :=
  { c.map Value.str with key := f c.key }

def copiedEnd (f : Nat → Nat) (e : Endpoint) : EndpointOf Value :=
  { e.map Value.str with key := f e.key }

/-- A relationship with its texts as values, between copied ends. -/
structure CopiedEdge (f : Nat → Nat) (r : Relationship) (r' : RelationshipOf Value) : Prop where
  rest : r' = { r.map Value.str with
    key := r'.key, source := copiedEnd f r.source, target := copiedEnd f r.target }

/-- Other keys tell the classifiers of a diagram apart, and there are no others at its relationships. -/
structure Rekeyed (f : Nat → Nat) (t : Diagram) : Prop where
  apart : ∀ a ∈ t.classifiers, ∀ b ∈ t.classifiers, f a.key = f b.key → a = b
  sources : ∀ r ∈ t.relationships, ∃ c ∈ t.classifiers, c.toEndpoint = r.source
  targets : ∀ r ∈ t.relationships, ∃ c ∈ t.classifiers, c.toEndpoint = r.target

/-- A diagram of the same name with the same classifiers and relationships under other keys, each sort
in its order and all texts as values. -/
structure Copy (f : Nat → Nat) (t : Diagram) (d : DiagramOf Value) : Prop extends Rekeyed f t where
  name : d.name = .str t.name
  classifiers : d.classifiers = t.classifiers.map (copied f)
  relationships : List.Forall₂ (CopiedEdge f) t.relationships d.relationships

/-- The texts of a copied classifier. -/
def renewed (f : Nat → Nat) (c : Classifier) : Classifier := classifierTexts (copied f c)

def renewedEnd (f : Nat → Nat) (e : Endpoint) : Endpoint := { e with key := f e.key }

/-- A relationship as its copy shows it, between renewed ends. -/
structure RenewedEdge (f : Nat → Nat) (r r' : Relationship) : Prop where
  rest : r' = { relationshipTexts (r.map Value.str) with
    key := r'.key, source := renewedEnd f r.source, target := renewedEnd f r.target }

/-- A diagram as a copy of it shows it. -/
structure Renewal (f : Nat → Nat) (t t' : Diagram) : Prop extends Rekeyed f t where
  name : t'.name = t.name
  classifiers : t'.classifiers = t.classifiers.map (renewed f)
  relationships : List.Forall₂ (RenewedEdge f) t.relationships t'.relationships

/-! ## Slots -/

section Slots

variable {text : String} {text? : Option String}

/-- An optional text, an empty one being none. -/
def given (text? : Option String) : Option String := text?.filter fun s => !s.isEmpty

theorem isVoid_str : Label.isVoid (Value.str text) = text.isEmpty := Bool.not_not _

theorem present_str : Label.present (Value.str text) = text := by
  unfold Label.present
  rw [isVoid_str]
  exact Label.present_string text

theorem qualify_str {name : String} : qualify (Value.str text) (Value.str name) = qualify text name := by
  unfold qualify
  rw [isVoid_str]
  rfl

theorem optionalText_str : optionalText (text?.map Value.str) = given text? := by
  cases text? with
  | none => rfl
  | some text =>
    rw [Option.map_some, optionalText, given, Option.filter_some, Option.filter_some]
    show (if (!text.isEmpty) = true then some (Value.str text) else none).map (·.shown) = _
    split <;> rfl

/-- Whoever takes an empty text for none does not see the difference. -/
theorem given_congr {α : Type} (use : Option String → α) (hempty : use (some "") = use none) :
    use (given text?) = use text? := by
  cases text? with
  | none => rfl
  | some text =>
    rw [given, Option.filter_some]
    split
    · rfl
    · rename_i h
      have hvoid : text = "" := by simpa using h
      rw [hvoid, hempty]

end Slots

section Corresponding

variable {α β γ : Type} {related : α → β → Prop} {xs : List α} {ys : List β}

/-- The keys of corresponding items correspond, if none comes twice. -/
theorem exists_renaming {key : α → Nat} (key' : β → Nat) (h : List.Forall₂ related xs ys)
    (hnodup : (xs.map key).Nodup) :
    ∃ f : Nat → Nat, List.Forall₂ (fun x y => related x y ∧ key' y = f (key x)) xs ys := by
  induction h with
  | nil => exact ⟨id, .nil⟩
  | @cons x y xs ys hxy _ ih =>
    rw [List.map_cons, List.nodup_cons] at hnodup
    obtain ⟨hnew, hnodup⟩ := hnodup
    obtain ⟨f, hf⟩ := ih hnodup
    have hne : ∀ a ∈ xs, key a ≠ key x := fun a ha heq => hnew (heq ▸ List.mem_map_of_mem ha)
    refine ⟨fun k => if k = key x then key' y else f k, .cons ⟨hxy, (if_pos rfl).symm⟩ ?_⟩
    refine ((List.forall₂_and_left _ _).mpr ⟨hne, hf⟩).imp ?_
    rintro a b ⟨hne, hab, hkey⟩
    exact ⟨hab, hkey.trans (if_neg hne).symm⟩

/-- What is picked alike and shown alike gives the same list. -/
theorem filter_map_eq {p : α → Bool} {p' : β → Bool} {g : α → γ} {g' : β → γ}
    (h : List.Forall₂ related xs ys) (hp : ∀ x y, related x y → p' y = p x)
    (hg : ∀ x y, related x y → g' y = g x) : (ys.filter p').map g' = (xs.filter p).map g := by
  induction h with
  | nil => rfl
  | cons hxy _ ih =>
    rw [List.filter_cons, List.filter_cons, hp _ _ hxy]
    split
    · rw [List.map_cons, List.map_cons, hg _ _ hxy, ih]
    · exact ih

end Corresponding

namespace Rekeyed

variable {f : Nat → Nat} {t : Diagram}

/-- What a relationship of the diagram knows of a classifier at one of its ends. -/
def Known (t : Diagram) (e : Endpoint) : Prop := ∃ c ∈ t.classifiers, c.toEndpoint = e

theorem known {c : Classifier} (hc : c ∈ t.classifiers) : Known t c.toEndpoint := ⟨c, hc, rfl⟩

/-- The new keys tell the same classifiers apart. -/
theorem key_beq (h : Rekeyed f t) {a b : Endpoint} (ha : Known t a) (hb : Known t b) :
    (f a.key == f b.key) = (a.key == b.key) := by
  obtain ⟨c, hc, rfl⟩ := ha
  obtain ⟨k, hk, rfl⟩ := hb
  rw [Bool.eq_iff_iff, beq_iff_eq, beq_iff_eq]
  exact ⟨fun heq => congrArg (·.key) (h.apart c hc k hk heq), fun heq => congrArg f heq⟩

end Rekeyed

theorem texts_classifiers (d : DiagramOf Value) :
    (texts d).classifiers = d.classifiers.map classifierTexts := by
  rw [DiagramOf.classifiers, DiagramOf.classifiers, texts, List.filterMap_map, List.map_filterMap]
  refine congrArg (List.filterMap · d.elements) (funext fun e => ?_)
  cases e <;> rfl

theorem texts_relationships (d : DiagramOf Value) :
    (texts d).relationships = d.relationships.map relationshipTexts := by
  rw [DiagramOf.relationships, DiagramOf.relationships, texts, List.filterMap_map, List.map_filterMap]
  refine congrArg (List.filterMap · d.elements) (funext fun e => ?_)
  cases e <;> rfl

namespace Copy

variable {f : Nat → Nat} {t : Diagram} {d : DiagramOf Value}

/-- Corresponding relationships, the ends of the first among the classifiers of the diagram. -/
structure Edge (f : Nat → Nat) (t : Diagram) (r : Relationship) (r' : RelationshipOf Value) : Prop
    extends CopiedEdge f r r' where
  source : Rekeyed.Known t r.source
  target : Rekeyed.Known t r.target

theorem edges (h : Copy f t d) : List.Forall₂ (Edge f t) t.relationships d.relationships := by
  refine ((List.forall₂_and_left _ _).mpr ⟨fun r hr => hr, h.relationships⟩).imp ?_
  rintro r r' ⟨hr, hrest⟩
  exact ⟨hrest, h.sources r hr, h.targets r hr⟩

theorem endTexts_copiedEnd (f : Nat → Nat) (e : Endpoint) : endTexts (copiedEnd f e) = renewedEnd f e := by
  unfold endTexts
  rw [show (copiedEnd f e).namespaceName = .str e.namespaceName from rfl, present_str]
  rfl

/-- The texts of a copy are a renewal. -/
theorem texts (h : Copy f t d) : Renewal f t (texts d) where
  toRekeyed := h.toRekeyed
  name := by
    show Label.present d.name = t.name
    rw [h.name, present_str]
  classifiers := by
    rw [texts_classifiers, h.classifiers, List.map_map]
    rfl
  relationships := by
    rw [texts_relationships, List.forall₂_map_right_iff]
    refine h.relationships.imp fun r r' hr => ⟨?_⟩
    rw [hr.rest]
    simp only [relationshipTexts, endTexts_copiedEnd]

end Copy

section Reading

variable {w : Identity String} {t : Diagram} {d : DiagramOf Value} {s : Supply}

theorem exists_copied (h : Reachable w t) (hrestores : Restores (t.map Value.str) d) :
    ∃ f, d.classifiers = t.classifiers.map (copied f) := by
  have hsame := hrestores.classifiers
  rw [classifiers_map, List.forall₂_map_left_iff] at hsame
  have hnodup : (t.classifiers.map (·.key)).Nodup := h.tracked.nodup
  obtain ⟨f, hf⟩ := exists_renaming (fun c : ClassifierOf Value => c.key) hsame hnodup
  refine ⟨f, ?_⟩
  rw [← List.map_id d.classifiers]
  refine map_eq_of_forall₂ hf ?_
  rintro c c' ⟨hsame, hkey⟩
  rw [copied, ← hkey]
  exact hsame

/-- What reading restores is a copy. -/
theorem copy_of_restores (h : Reachable w t) (hrestores : Restores (t.map Value.str) d)
    (harranged : Arranged d s) : ∃ f, Copy f t d := by
  obtain ⟨f, hclassifiers⟩ := exists_copied h hrestores
  -- An end is the classifier of its id, and an id stands for one classifier.
  have hend : ∀ {e : Endpoint} {e' : EndpointOf Value}, (∃ c ∈ t.classifiers, c.toEndpoint = e) →
      (∃ c' ∈ d.classifiers, c'.id = (e.map Value.str).id ∧ e' = c'.toEndpoint) → e' = copiedEnd f e := by
    rintro e e' ⟨c, hc, rfl⟩ ⟨c', hc', hid, rfl⟩
    rw [hclassifiers] at hc'
    obtain ⟨a, ha, rfl⟩ := List.mem_map.mp hc'
    rw [h.tracked.eq_of_id ha hc (Value.str.inj hid)]
    rfl
  refine ⟨f, ⟨?_, fun r hr => h.source_mem hr, fun r hr => h.target_mem hr⟩, ?_, hclassifiers, ?_⟩
  · have hkeys : (d.classifiers.map (·.key)).Nodup :=
      List.pairwise_map.mpr (harranged.increasing.imp Nat.ne_of_lt)
    rw [hclassifiers, List.map_map] at hkeys
    exact fun a ha b hb heq => List.inj_on_of_nodup_map hkeys ha hb heq
  · rw [hrestores.header]
    rfl
  · have hrelationships := hrestores.relationships
    rw [relationships_map, List.forall₂_map_left_iff] at hrelationships
    refine ((List.forall₂_and_left _ _).mpr ⟨fun r hr => hr, hrelationships⟩).imp ?_
    rintro r r' ⟨hr, hjoined⟩
    have hsource := hend (h.source_mem hr) hjoined.source
    have htarget := hend (h.target_mem hr) hjoined.target
    constructor
    rw [hjoined.rest, hsource, htarget]

end Reading

end ClassAtlas.Document
