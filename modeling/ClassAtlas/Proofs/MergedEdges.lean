import ClassAtlas.Proofs.AnalyzedDiagrams

/-! # Merging settles a diagram

Inference and merging both tell edges apart by ids, the one among the edges it finds, the other against
those that the diagram has, whoever made them. In a reachable diagram an id stands for a classifier, so
merging enters exactly the edges that were lacking, behind everything that was there. Inference looks at
classifiers only: it finds the same edges afterwards, and none of them is lacking any more. -/

namespace ClassAtlas

theorem DiagramOf.relationships_withRelationships {τ : Type} {d : DiagramOf τ}
    {rs : List (RelationshipOf τ)} : (d.withRelationships rs).relationships = d.relationships ++ rs := by
  have hall : (rs.map ElementOf.relationship).filterMap (·.relationship?) = rs := by
    rw [List.filterMap_map]
    exact List.filterMap_some
  rw [relationships, withRelationships, List.filterMap_append, hall, relationships]

namespace Inference

/-- The relationships that a diagram does not have yet: none of its own joins the same classifiers and
is of the same kind. -/
def lacking (d : Diagram) (rs : List Relationship) : List Relationship :=
  rs.filter fun r => triple r ∉ d.relationships.map triple

/-! ## Ids and classifiers -/

section Ids

variable {w : Identity String} {d : Diagram} {rs : List Relationship} {r r' : Relationship}
  {e e' : Endpoint}

/-- Between classifiers of a diagram, ids tell ends apart as keys do. -/
theorem id_eq_iff (h : Reachable w d) (he : ∃ c ∈ d.classifiers, c.toEndpoint = e)
    (he' : ∃ c ∈ d.classifiers, c.toEndpoint = e') : e.id = e'.id ↔ e.key = e'.key := by
  obtain ⟨a, ha, rfl⟩ := he
  obtain ⟨b, hb, rfl⟩ := he'
  constructor
  · intro hid
    rw [h.tracked.eq_of_id ha hb hid]
  · intro hkey
    rw [h.tracked.eq_of_key ha hb hkey]

/-- Both ends of a relationship are classifiers of the diagram. -/
def Within (d : Diagram) (r : Relationship) : Prop :=
  (∃ c ∈ d.classifiers, c.toEndpoint = r.source) ∧ ∃ c ∈ d.classifiers, c.toEndpoint = r.target

theorem within_of_mem (h : Reachable w d) (hr : r ∈ d.relationships) : Within d r :=
  ⟨h.source_mem hr, h.target_mem hr⟩

theorem within_of_joining (h : Joining d.classifiers rs) (hr : r ∈ rs) : Within d r := by
  obtain ⟨a, ha, b, hb, hsource, htarget⟩ := h.ends r hr
  exact ⟨⟨a, ha, hsource.symm⟩, b, hb, htarget.symm⟩

theorem identity_eq_iff (h : Reachable w d) (hr : Within d r) (hr' : Within d r') :
    identity r = identity r' ↔ triple r = triple r' := by
  simp only [identity, triple, Prod.mk.injEq, id_eq_iff h hr.1 hr'.1, id_eq_iff h hr.2 hr'.2]

theorem identity_mem_iff (h : Reachable w d) (hr : Within d r) :
    identity r ∈ d.relationships.map identity ↔ triple r ∈ d.relationships.map triple := by
  rw [List.mem_map, List.mem_map]
  exact exists_congr fun old => and_congr_right fun hold =>
    identity_eq_iff h (within_of_mem h hold) hr

end Ids

/-! ## What merging takes -/

section Taken

variable {α κ : Type} [BEq κ] [LawfulBEq κ] {key : α → κ} {seen : List κ} {xs : List α}

/-- Of items that all differ, those remain that were not seen before. -/
theorem firstBy_of_nodup (h : (xs.map key).Nodup) :
    firstBy key seen xs = xs.filter fun x => !seen.contains (key x) := by
  induction xs generalizing seen with
  | nil => rfl
  | cons x xs ih =>
    obtain ⟨hx, h⟩ := List.nodup_cons.mp h
    have hothers : (xs.filter fun y => !(key x :: seen).contains (key y)) =
        xs.filter fun y => !seen.contains (key y) := by
      refine List.filter_congr fun y hy => ?_
      have hne : (key y == key x) = false :=
        beq_eq_false_iff_ne.mpr fun heq => hx (heq ▸ List.mem_map_of_mem hy)
      rw [List.contains_cons, hne, Bool.false_or]
    rw [firstBy, List.filter_cons]
    cases seen.contains (key x) with
    | true => exact ih h
    | false => exact congrArg (x :: ·) ((ih h).trans hothers)

variable {w : Identity String} {d : Diagram} {rs : List Relationship}
  {existing : List (String × String × RelationshipKind)} {added : Nat}

/-- Merging takes the relationships that the diagram lacks, if no two are alike. -/
theorem taken_eq_lacking (h : Reachable w d) (hjoining : Joining d.classifiers rs)
    (hdistinct : (rs.map triple).Nodup) :
    firstBy identity (d.relationships.map identity) rs = lacking d rs := by
  have hcongr : firstBy identity (d.relationships.map identity) rs =
      firstBy triple (d.relationships.map triple) rs :=
    firstBy_congr (fun r hr => identity_mem_iff h (within_of_joining hjoining hr)) fun r hr r' hr' =>
      identity_eq_iff h (within_of_joining hjoining hr) (within_of_joining hjoining hr')
  rw [hcongr, firstBy_of_nodup hdistinct]
  exact List.filter_congr fun r _ => by
    rw [List.contains_eq_mem, ← decide_not]

/-- Nothing is merged of what is there already. -/
theorem mergeFrom_known (h : ∀ r ∈ rs, identity r ∈ existing) :
    mergeFrom existing added d rs = ⟨d, added, none⟩ := by
  induction rs with
  | nil => rfl
  | cons r rs ih =>
    obtain ⟨hr, h⟩ := List.forall_mem_cons.mp h
    rw [mergeFrom, if_pos (List.contains_iff_mem.mpr hr), ih h]

end Taken

/-! ## Merging what inference finds -/

section Settled

variable {w : Identity String} {d d' : Diagram} {searchOrder : List String} {withSupertypes : Bool}
  {supply supply' : Supply} {r : Relationship}

/-- Inference looks at the classifiers of a diagram only. -/
theorem ends_analyze (hclassifiers : d'.classifiers = d.classifiers) :
    (analyze d' searchOrder withSupertypes supply').1.relationships.map
        (fun r => (r.source, r.target, r.kind)) =
      (analyze d searchOrder withSupertypes supply).1.relationships.map
        fun r => (r.source, r.target, r.kind) := by
  have hends (d : Diagram) (supply : Supply) :
      (analyze d searchOrder withSupertypes supply).1.relationships.map
        (fun r => (r.source, r.target, r.kind)) =
      (edges ⟨d.classifiers, searchOrder⟩ (references d.classifiers withSupertypes)).map Edge.ends :=
    enrolAll_ends
  rw [hends, hends, hclassifiers]

/-- Edges that are found get new keys. -/
theorem born_le_key (hr : r ∈ (analyze d searchOrder withSupertypes supply).1.relationships) :
    supply.born ≤ r.key := by
  have hkey : r.key ∈ (analyze d searchOrder withSupertypes supply).1.relationships.map (·.key) :=
    List.mem_map_of_mem hr
  have hkeys : (analyze d searchOrder withSupertypes supply).1.relationships.map (·.key) = _ :=
    keys_enrolAll
  rw [hkeys, List.mem_range'] at hkey
  obtain ⟨i, -, hi⟩ := hkey
  omega

/-- After merging, the diagram has every edge that inference finds. -/
theorem identity_mem_merged (h : Reachable w d) {rs : List Relationship}
    (hjoining : Joining d.classifiers rs) (hr : r ∈ rs) :
    identity r ∈ (d.withRelationships (lacking d rs)).relationships.map identity := by
  rw [DiagramOf.relationships_withRelationships, List.map_append, List.mem_append]
  by_cases hthere : triple r ∈ d.relationships.map triple
  · exact .inl ((identity_mem_iff h (within_of_joining hjoining hr)).mpr hthere)
  · exact .inr (List.mem_map_of_mem (List.mem_filter.mpr ⟨hr, decide_eq_true hthere⟩))

/-- Merging what inference finds never fails. It counts and enters exactly the edges that the diagram
lacks, in the order of the report and behind all elements. From then on inference finds the same edges
in the same order, and merging them changes nothing. -/
theorem merge_settles (h : Reachable w d) (searchOrder : List String) (withSupertypes : Bool)
    (supply : Supply) (hnew : ∀ r ∈ d.relationships, r.key < supply.born) :
    let found := (analyze d searchOrder withSupertypes supply).1.relationships
    let merged := d.withRelationships (lacking d found)
    merge d found = ⟨merged, (lacking d found).length, none⟩ ∧
      merged.elements = d.elements ++ (lacking d found).map .relationship ∧
      ∀ supply', let again := (analyze merged searchOrder withSupertypes supply').1.relationships
        again.map triple = found.map triple ∧ merge merged again = ⟨merged, 0, none⟩ := by
  intro found merged
  have hjoining : Joining d.classifiers found := joining_analyze h searchOrder withSupertypes
  have hdistinct : (found.map triple).Nodup :=
    (exact_of_ends h (found_ends h searchOrder withSupertypes supply)).distinct
  refine ⟨?_, rfl, fun supply' => ?_⟩
  · have hfree : ∀ r ∈ found, d.holdsRelationship r.key = false := by
      intro r hr
      rw [DiagramOf.holdsRelationship, List.any_eq_false]
      intro e he hkey
      obtain ⟨old, rfl, hold⟩ := isRelationship_iff.mp hkey
      have hless := hnew old (DiagramOf.mem_relationships.mpr he)
      have hborn := born_le_key hr
      omega
    rw [merge_joining h hjoining hfree, taken_eq_lacking h hjoining hdistinct]
  · intro again
    have hsame : again.map (fun r => (r.source, r.target, r.kind)) =
        found.map fun r => (r.source, r.target, r.kind) :=
      ends_analyze DiagramOf.classifiers_withRelationships
    have htriples := congrArg (List.map fun x => (x.1.key, x.2.1.key, x.2.2)) hsame
    have hidentities := congrArg (List.map fun x => (x.1.id, x.2.1.id, x.2.2)) hsame
    rw [List.map_map, List.map_map] at htriples hidentities
    refine ⟨htriples, mergeFrom_known fun r hr => ?_⟩
    have hr : identity r ∈ again.map identity := List.mem_map_of_mem hr
    obtain ⟨r', hr', heq⟩ := List.mem_map.mp (show identity r ∈ found.map identity from hidentities ▸ hr)
    exact heq ▸ identity_mem_merged h hjoining hr'

/-- Two orders of items were drawn by hand, one like the other; the use in an operation was not. -/
theorem merge_settles_drawn :
    let item := bareClass 0 "Item"
    let order := { bareClass 1 "Order" with
      fields := [⟨"lines", "List<Item>", none, .private, false, true⟩]
      operations := [{ name := "first", returnType := some "Item" }] }
    let drawn : Relationship :=
      { bareEdge 0 order item .composition with targetMultiplicity := some "1..*" }
    let twin := bareEdge 1 order item .composition
    let w : Identity String := ⟨fun key => if key = 0 then "Item" else "Order", fun _ => 1, fun _ => 0⟩
    let d : Diagram := { (DiagramOf.empty "shop" "" none none none {}).1 with
      elements := [.classifier item, .classifier order, .relationship drawn, .relationship twin]
      index := [("Item", 0), ("Order", 1)] }
    let found := (analyze d [] true ⟨0, 2⟩).1.relationships
    Reachable w d ∧ (∀ r ∈ d.relationships, r.key < 2) ∧
      found.map triple = [(1, 0, .composition), (1, 0, .dependency)] ∧
      (lacking d found).map triple = [(1, 0, .dependency)] ∧
      merge d found = ⟨d.withRelationships (lacking d found), 1, none⟩ := by
  intro item order drawn twin w d found
  have hreach : Reachable w d := by
    have hnew : Reachable w (DiagramOf.empty "shop" "" none none none {}).1 := .new ..
    have hends := (hnew.withClassifier (c := item) rfl rfl).withClassifier (c := order) rfl rfl
    have hdrawn := hends.withRelationship (r := drawn) (a := order) (b := item) (.tail _ (.head _))
      (.head _) rfl rfl ⟨rfl, rfl⟩ rfl rfl
    exact hdrawn.withRelationship (r := twin) (a := order) (b := item) (.tail _ (.head _)) (.head _)
      rfl rfl ⟨rfl, rfl⟩ rfl rfl
  have hkeys : ∀ r ∈ d.relationships, r.key < 2 := by decide
  have hlacking : (lacking d found).map triple = [(1, 0, .dependency)] := by decide +kernel
  have hone : (lacking d found).length = 1 := by
    simpa using congrArg List.length hlacking
  have hmerge := (merge_settles hreach [] true ⟨0, 2⟩ hkeys).1
  exact ⟨hreach, hkeys, by decide +kernel, hlacking, hmerge.trans (by rw [hone])⟩

end Settled

end Inference

end ClassAtlas
