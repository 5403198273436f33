import ClassAtlas.Proofs.MergedEdges

/-! # Merges that are refused

One relationship is entered as a whole or not at all. Merging enters many, one after the other, and looks
at the ends of each when its turn comes. So a merge that meets a relationship with an end outside the
diagram stops there and leaves what merging the relationships before it leaves: the diagram is as it was
only if none of these was new. -/

namespace ClassAtlas

section Additions

variable {d d' : Diagram} {r : Relationship} {relationship classifier diagram : String} {side : Side}
  {refusal : Refusal}

theorem DiagramOf.eq_of_addRelationship (h : d.addRelationship r = .ok d') :
    d' = d.withRelationships [r] := by
  unfold DiagramOf.addRelationship at h
  split at h
  · cases h
  · split at h
    · cases h
    · split at h
      · cases h
      · exact (Except.ok.inj h).symm

/-- What a relationship knows of a classifier on a side. -/
def RelationshipOf.endOn {τ : Type} (r : RelationshipOf τ) : Side → EndpointOf τ
  | .source => r.source
  | .target => r.target

/-- A relationship dangles on a side: its end there is not in the diagram, and on the side before, if
there is one, it is. -/
def DiagramOf.DanglesOn (d : Diagram) (r : Relationship) (side : Side) : Prop :=
  d.holdsClassifier (r.endOn side).id (r.endOn side).key = false ∧
    (side = .target → d.holdsClassifier r.source.id r.source.key = true)

/-- A relationship is refused for an end exactly if it dangles there, and the refusal names it. -/
theorem DiagramOf.addRelationship_eq_dangling :
    d.addRelationship r = .error (.dangling relationship side classifier diagram) ↔
      d.DanglesOn r side ∧ relationship = r.name ∧ classifier = (r.endOn side).qualifiedName ∧
        diagram = d.name := by
  unfold DiagramOf.addRelationship
  cases hsource : d.holdsClassifier r.source.id r.source.key with
  | false =>
    cases side with
    | source => simp [DanglesOn, RelationshipOf.endOn, hsource, eq_comm]
    | target => simp [DanglesOn, hsource]
  | true =>
    cases htarget : d.holdsClassifier r.target.id r.target.key with
    | false =>
      cases side with
      | source => simp [DanglesOn, RelationshipOf.endOn, hsource]
      | target => simp [DanglesOn, RelationshipOf.endOn, hsource, htarget, eq_comm]
    | true => cases hheld : d.holdsRelationship r.key <;> cases side <;>
        simp [DanglesOn, RelationshipOf.endOn, hsource, htarget]

/-- Relationships that come change nothing about which ends are in the diagram. -/
theorem DiagramOf.danglesOn_withRelationships {rs : List Relationship} :
    (d.withRelationships rs).DanglesOn r side ↔ d.DanglesOn r side := Iff.rfl

end Additions

namespace Inference

variable {d : Diagram} {rs : List Relationship}
  {existing : List (String × String × RelationshipKind)} {added : Nat} {refusal : Refusal}

/-- A merge that is not refused enters what is new. -/
theorem mergeFrom_of_not_refused (h : (mergeFrom existing added d rs).refusal = none) :
    mergeFrom existing added d rs = ⟨d.withRelationships (firstBy identity existing rs),
      added + (firstBy identity existing rs).length, none⟩ := by
  induction rs generalizing existing added d with
  | nil =>
    rw [firstBy, DiagramOf.withRelationships_nil]
    rfl
  | cons r rs ih =>
    rw [mergeFrom] at h ⊢
    rw [firstBy]
    split
    · rename_i hknown
      rw [if_pos hknown] at h
      exact ih h
    · rename_i hnew
      rw [if_neg hnew] at h
      cases hadd : d.addRelationship r with
      | error refusal =>
        rw [hadd] at h
        cases h
      | ok d' =>
        rw [hadd] at h
        obtain rfl := DiagramOf.eq_of_addRelationship hadd
        dsimp only at h ⊢
        rw [ih h, ← DiagramOf.withRelationships_cons, List.length_cons, Nat.add_assoc, Nat.add_comm 1]

/-- A merge that is refused was refused a new relationship. Up to there it went as the merge of the
relationships before, and it leaves what that one leaves. -/
theorem mergeFrom_of_refused (h : (mergeFrom existing added d rs).refusal = some refusal) :
    ∃ before r after left, rs = before ++ r :: after ∧ identity r ∉ existing ∧
      identity r ∉ before.map identity ∧ mergeFrom existing added d before = left ∧
      left.refusal = none ∧ left.diagram.addRelationship r = .error refusal ∧
      mergeFrom existing added d rs = { left with refusal := some refusal } := by
  induction rs generalizing existing added d with
  | nil => cases h
  | cons r rs ih =>
    rw [mergeFrom] at h ⊢
    split
    · rename_i hknown
      rw [if_pos hknown] at h
      obtain ⟨before, r', after, left, rfl, hnew, hapart, hleft, hdone, hrefused, hall⟩ := ih h
      refine ⟨r :: before, r', after, left, rfl, hnew, ?_, ?_, hdone, hrefused, hall⟩
      · rw [List.map_cons, List.mem_cons, not_or]
        exact ⟨fun heq => hnew (heq ▸ List.contains_iff_mem.mp hknown), hapart⟩
      · rw [mergeFrom, if_pos hknown, hleft]
    · rename_i hnew
      rw [if_neg hnew] at h
      cases hadd : d.addRelationship r with
      | error refusal' =>
        rw [hadd] at h
        cases h
        exact ⟨[], r, rs, _, rfl, mt List.contains_iff_mem.mpr hnew, List.not_mem_nil, rfl, rfl, hadd,
          rfl⟩
      | ok d' =>
        rw [hadd] at h
        obtain ⟨before, r', after, left, rfl, hnew', hapart, hleft, hdone, hrefused, hall⟩ := ih h
        obtain ⟨hne, hold⟩ := not_or.mp (mt List.mem_cons.mpr hnew')
        refine ⟨r :: before, r', after, left, rfl, hold, ?_, ?_, hdone, hrefused, hall⟩
        · rw [List.map_cons, List.mem_cons, not_or]
          exact ⟨hne, hapart⟩
        · rw [mergeFrom, if_neg hnew, hadd]
          exact hleft

theorem firstBy_eq_nil_iff : firstBy identity existing rs = [] ↔ ∀ r ∈ rs, identity r ∈ existing := by
  rw [← List.map_eq_nil_iff (f := identity), List.eq_nil_iff_forall_not_mem]
  constructor
  · intro hnone r hr
    by_contra hnew
    exact hnone (identity r) (mem_map_firstBy.mpr ⟨List.mem_map_of_mem hr, hnew⟩)
  · intro hold key hkey
    obtain ⟨hmem, hnew⟩ := mem_map_firstBy.mp hkey
    obtain ⟨r, hr, rfl⟩ := List.mem_map.mp hmem
    exact hnew (hold r hr)

/-- A merge that is refused for a dangling end stops at the first new relationship that dangles. It has
entered the new ones before it and leaves them in the diagram; so the elements are those of before
exactly if every relationship before it had one like it there. -/
theorem merge_unchanged_iff {relationship classifier diagram : String} {side : Side}
    (h : (merge d rs).refusal = some (.dangling relationship side classifier diagram)) :
    ∃ before r after, rs = before ++ r :: after ∧ d.DanglesOn r side ∧ relationship = r.name ∧
      classifier = (r.endOn side).qualifiedName ∧ diagram = d.name ∧
      identity r ∉ (d.relationships ++ before).map identity ∧ (merge d before).refusal = none ∧
      (merge d rs).diagram =
        d.withRelationships (firstBy identity (d.relationships.map identity) before) ∧
      ((merge d rs).diagram.elements = d.elements ↔
        ∀ old ∈ before, identity old ∈ d.relationships.map identity) := by
  obtain ⟨before, r, after, left, hrs, hnew, hapart, hleft, hdone, hrefused, hall⟩ :=
    mergeFrom_of_refused h
  have hbefore : (merge d before).refusal = none := (congrArg Merged.refusal hleft).trans hdone
  have hdiagram : left.diagram =
      d.withRelationships (firstBy identity (d.relationships.map identity) before) := by
    rw [← hleft, mergeFrom_of_not_refused hbefore]
  have hmerged : (merge d rs).diagram = left.diagram := by rw [merge, hall]
  rw [hdiagram] at hrefused hmerged
  obtain ⟨hdangles, hrelationship, hclassifier, hname⟩ :=
    DiagramOf.addRelationship_eq_dangling.mp hrefused
  refine ⟨before, r, after, hrs, DiagramOf.danglesOn_withRelationships.mp hdangles, hrelationship,
    hclassifier, hname, ?_, hbefore, hmerged, ?_⟩
  · rw [List.map_append, List.mem_append, not_or]
    exact ⟨hnew, hapart⟩
  · rw [hmerged, DiagramOf.withRelationships, List.append_right_eq_self, List.map_eq_nil_iff,
      firstBy_eq_nil_iff]

/-- An order and a customer are in the diagram, an invoice is not. Merging an edge between the first two
and then one to the invoice is refused, and the first edge stays. -/
theorem merge_unchanged_iff_stray :
    let order := bareClass 0 "Order"
    let customer := bareClass 1 "Customer"
    let invoice := bareClass 2 "Invoice"
    let w : Identity String := ⟨fun key => if key = 0 then "Order" else "Customer", fun _ => 0, fun _ => 0⟩
    let d : Diagram := { (DiagramOf.empty "shop" "" none none none {}).1 with
      elements := [.classifier order, .classifier customer]
      index := [("Order", 0), ("Customer", 1)] }
    let placed := bareEdge 0 order customer .association
    let billed := bareEdge 1 order invoice .association
    Reachable w d ∧
      (merge d [placed, billed]).refusal = some (.dangling "e" .target "Invoice" "shop") ∧
      (merge d [placed, billed]).diagram.elements = d.elements ++ [.relationship placed] ∧
      (merge d [placed, billed]).diagram.elements ≠ d.elements := by
  intro order customer invoice w d placed billed
  have hreach : Reachable w d := by
    have hnew : Reachable w (DiagramOf.empty "shop" "" none none none {}).1 := .new ..
    exact (hnew.withClassifier (c := order) rfl rfl).withClassifier (c := customer) rfl rfl
  have hrefused : (merge d [placed, billed]).refusal =
      some (.dangling "e" .target "Invoice" "shop") := by decide +kernel
  obtain ⟨before, r, after, hrs, ⟨hdangles, -⟩, -, -, -, -, -, -, hsame⟩ :=
    merge_unchanged_iff hrefused
  refine ⟨hreach, hrefused, rfl, fun hunchanged => ?_⟩
  cases before with
  | nil =>
    obtain ⟨rfl, -⟩ := List.cons.inj hrs
    exact absurd hdangles (by decide +kernel)
  | cons first before =>
    obtain ⟨rfl, -⟩ := List.cons.inj hrs
    exact absurd (hsame.mp hunchanged placed List.mem_cons_self) (by decide +kernel)

end Inference

end ClassAtlas
