import ClassAtlas.Proofs.InheritanceSearch
import ClassAtlas.Proofs.MultiplicityGrammar

/-! # Sound diagrams have no defects

Soundness says what a diagram must be, without reference to any search: names tell classifiers apart,
inheritance has no cycle, and so on. A rule reports nothing exactly when its part of soundness holds.
Names and multiplicities can be read off any diagram. The rules about edges count on ids, which stand
for classifiers in reachable diagrams only. -/

namespace ClassAtlas.Validation

open Relation (TransGen)

/-- A multiplicity that nobody objects to. -/
def Acceptable (text? : Option String) : Prop :=
  ∀ text, text? = some text → text = "" ∨ Multiplicity.WellFormed text

/-- A diagram without structural defects. -/
structure Sound (d : Diagram) : Prop where
  /-- A name within a namespace stands for one classifier. -/
  named : d.classifiers.Pairwise fun a b => (a.namespaceName, a.name) ≠ (b.namespaceName, b.name)
  /-- Inheritance leads from no classifier back to it. -/
  acyclic : ∀ c ∈ d.classifiers, ¬ TransGen (Inherits d) c.key c.key
  /-- Classes and enumerations have at most one superclass, and one edge to it. -/
  single : ∀ c ∈ d.classifiers, c.kind = .class ∨ c.kind = .enumeration →
    ¬ 2 ≤ (d.outgoing c.key (some .inheritance)).length
  /-- What is implemented is an interface. -/
  contracts : ∀ r ∈ d.relationships, r.kind = .implementation →
    ∃ c ∈ d.classifiers, c.key = r.target.key ∧ c.kind = .interface
  /-- Multiplicities are well formed where they count. -/
  counted : ∀ r ∈ d.relationships,
    r.kind = .association ∨ r.kind = .aggregation ∨ r.kind = .composition →
      Acceptable r.sourceMultiplicity ∧ Acceptable r.targetMultiplicity

/-! ## Rules for any diagram -/

section Rules

variable {d : Diagram}

theorem repeated_eq_nil {κ α : Type} [BEq κ] [LawfulBEq κ] {seen : List κ} {entries : List (κ × α)} :
    repeated seen entries = [] ↔
      (∀ e ∈ entries, e.1 ∉ seen) ∧ entries.Pairwise fun a b => a.1 ≠ b.1 := by
  induction entries generalizing seen with
  | nil => simp [repeated]
  | cons e entries ih =>
    obtain ⟨key, entry⟩ := e
    unfold repeated
    by_cases hseen : key ∈ seen
    · rw [if_pos (by simpa using hseen)]
      constructor
      · intro h
        cases h
      · intro hgiven
        obtain ⟨hnew, -⟩ := hgiven
        exact absurd hseen (hnew _ List.mem_cons_self)
    · rw [if_neg (by simpa using hseen), ih]
      constructor
      · intro hgiven
        obtain ⟨hnew, hrest⟩ := hgiven
        refine ⟨?_, .cons (fun b hb heq => ?_) hrest⟩
        · intro e he
          rcases List.mem_cons.mp he with rfl | he
          · exact hseen
          · exact fun hm => hnew e he (List.mem_cons_of_mem _ hm)
        · exact hnew b hb (List.mem_cons.mpr (.inl heq.symm))
      · intro hgiven
        obtain ⟨hnew, hpairs⟩ := hgiven
        obtain ⟨hfirst, hrest⟩ := List.pairwise_cons.mp hpairs
        refine ⟨fun e he hm => ?_, hrest⟩
        rcases List.mem_cons.mp hm with heq | hm
        · exact hfirst e he heq.symm
        · exact hnew e (List.mem_cons_of_mem _ he) hm

theorem duplicateNames_eq_nil : duplicateNames d = [] ↔
    d.classifiers.Pairwise fun a b => (a.namespaceName, a.name) ≠ (b.namespaceName, b.name) := by
  unfold duplicateNames
  rw [repeated_eq_nil, List.pairwise_map]
  exact and_iff_right fun _ _ => List.not_mem_nil

theorem endDefect_eq_nil {r : Relationship} {side : Side} {text? : Option String} :
    endDefect r side text? = [] ↔ Acceptable text? := by
  cases text? with
  | none => simp [endDefect, Acceptable]
  | some text =>
    have hquiet : (text.isEmpty || Multiplicity.isValid text) = true ↔ Acceptable (some text) := by
      rw [Bool.or_eq_true, String.isEmpty_iff, Multiplicity.isValid_iff]
      constructor
      · intro h _ htext
        cases htext
        exact h
      · exact fun h => h text rfl
    rw [endDefect, ← hquiet]
    split <;> simp_all

theorem isStructural_iff {k : RelationshipKind} :
    k.isStructural = true ↔ k = .association ∨ k = .aggregation ∨ k = .composition := by
  cases k <;> simp [RelationshipKind.isStructural]

theorem multiplicities_eq_nil : multiplicities d = [] ↔
    ∀ r ∈ d.relationships, r.kind = .association ∨ r.kind = .aggregation ∨ r.kind = .composition →
      Acceptable r.sourceMultiplicity ∧ Acceptable r.targetMultiplicity := by
  simp only [multiplicities, List.flatMap_eq_nil_iff, List.mem_filter, and_imp,
    List.append_eq_nil_iff, endDefect_eq_nil, isStructural_iff]

end Rules

/-! ## Rules for reachable diagrams -/

section Reachable

variable {w : Identity String} {d : Diagram}

theorem inheritanceCycles_eq_nil (h : Reachable w d) : inheritanceCycles d = [] ↔
    ∀ c ∈ d.classifiers, ¬ TransGen (Inherits d) c.key c.key := by
  unfold inheritanceCycles
  rw [List.map_eq_nil_iff, List.filter_eq_nil_iff]
  exact forall₂_congr fun c hc => not_congr (isOnCycle_iff h hc)

/-- The edges found by the id of a classifier are the edges that start there. -/
theorem length_parentsOf (h : Reachable w d) {c : Classifier} (hc : c ∈ d.classifiers) :
    (parentsOf (parents d) c.id).length = (d.outgoing c.key (some .inheritance)).length := by
  have hstart : ∀ r ∈ d.relationships, (r.source.id == c.id) = (r.source.key == c.key) := by
    intro r hr
    obtain ⟨a, ha, hs⟩ := h.source_mem hr
    rw [← hs, Bool.eq_iff_iff, beq_iff_eq, beq_iff_eq]
    constructor
    · intro hid
      rw [h.tracked.eq_of_id ha hc hid]
      rfl
    · intro hk
      rw [h.tracked.eq_of_key ha hc hk]
      rfl
  rw [parentsOf, parents, List.filter_map, List.filter_filter, List.length_map, List.length_map,
    DiagramOf.outgoing]
  refine congrArg _ (List.filter_congr fun r hr => ?_)
  rw [Function.comp_apply, hstart r hr]

theorem multipleInheritance_eq_nil (h : Reachable w d) : multipleInheritance d = [] ↔
    ∀ c ∈ d.classifiers, c.kind = .class ∨ c.kind = .enumeration →
      ¬ 2 ≤ (d.outgoing c.key (some .inheritance)).length := by
  unfold multipleInheritance
  rw [List.filterMap_eq_nil_iff]
  refine forall₂_congr fun c hc => ?_
  have hkind : (c.kind != .interface) = true ↔ c.kind = .class ∨ c.kind = .enumeration := by
    cases c.kind <;> decide
  rw [← length_parentsOf h hc, ← hkind]
  simp [Nat.succ_le_iff]

theorem implementationTargets_eq_nil (h : Reachable w d) : implementationTargets d = [] ↔
    ∀ r ∈ d.relationships, r.kind = .implementation →
      ∃ c ∈ d.classifiers, c.key = r.target.key ∧ c.kind = .interface := by
  unfold implementationTargets
  rw [List.map_eq_nil_iff, List.filter_eq_nil_iff]
  refine forall₂_congr fun r hr => ?_
  obtain ⟨c, hc, ht⟩ := h.target_mem hr
  have hkind : r.target.kind = .interface ↔
      ∃ c ∈ d.classifiers, c.key = r.target.key ∧ c.kind = .interface := by
    rw [← ht]
    constructor
    · exact fun hk => ⟨c, hc, rfl, hk⟩
    · intro hgiven
      obtain ⟨a, ha, hak, hk⟩ := hgiven
      rw [h.tracked.eq_of_key ha hc hak] at hk
      exact hk
  rw [← hkind]
  simp

end Reachable

/-! ## All rules together -/

/-- Nothing is reported of a reachable diagram exactly when it is sound. -/
theorem validate_eq_nil_iff {w : Identity String} {d : Diagram} (h : Reachable w d) :
    d.validate = [] ↔ Sound d := by
  unfold DiagramOf.validate defects
  rw [List.map_eq_nil_iff]
  simp only [List.append_eq_nil_iff]
  rw [duplicateNames_eq_nil, inheritanceCycles_eq_nil h, multipleInheritance_eq_nil h,
    implementationTargets_eq_nil h, multiplicities_eq_nil]
  constructor
  · intro hgiven
    obtain ⟨⟨⟨⟨named, acyclic⟩, single⟩, contracts⟩, counted⟩ := hgiven
    exact ⟨named, acyclic, single, contracts, counted⟩
  · intro hgiven
    obtain ⟨named, acyclic, single, contracts, counted⟩ := hgiven
    exact ⟨⟨⟨⟨named, acyclic⟩, single⟩, contracts⟩, counted⟩

/-- A class that implements an interface and holds one or more of them. -/
theorem validate_eq_nil_iff_implementing :
    let shape : Classifier := { bareClass 0 "s" with kind := .interface }
    let group := bareClass 1 "g"
    let promise := bareEdge 0 group shape .implementation
    let parts : Relationship :=
      { bareEdge 1 group shape .aggregation with targetMultiplicity := some "1..*" }
    let w : Identity String := ⟨fun key => if key = 0 then "s" else "g", fun _ => 1, fun _ => 0⟩
    let d : Diagram := { (DiagramOf.empty "shapes" "" none none none {}).1 with
      elements := [.classifier shape, .classifier group, .relationship promise,
        .relationship parts]
      index := [("s", 0), ("g", 1)] }
    Reachable w d ∧ d.validate = [] ∧ Sound d := by
  intro shape group promise parts w d
  have hreach : Reachable w d := by
    have hnew : Reachable w (DiagramOf.empty "shapes" "" none none none {}).1 := .new ..
    have hends := (hnew.withClassifier (c := shape) rfl rfl).withClassifier (c := group) rfl rfl
    have hshape := List.mem_cons_self (a := shape) (l := [group])
    have hgroup := List.mem_cons_of_mem shape (List.mem_cons_self (a := group) (l := []))
    have hpromise := hends.withRelationship (r := promise) hgroup hshape rfl rfl ⟨rfl, rfl⟩ rfl rfl
    exact hpromise.withRelationship (r := parts) hgroup hshape rfl rfl ⟨rfl, rfl⟩ rfl rfl
  have hquiet : d.validate = [] := by
    have hnone : parents d = [] := rfl
    have hnames : duplicateNames d = [] := rfl
    have hcycles : inheritanceCycles d = [] := by
      simp [inheritanceCycles, isOnCycle, hnone, parentsOf, reaches]
    have hsingle : multipleInheritance d = [] := by
      simp [multipleInheritance, hnone, parentsOf]
    have htargets : implementationTargets d = [] := rfl
    have hcounts : multiplicities d = [] := rfl
    rw [DiagramOf.validate, defects, hnames, hcycles, hsingle, htargets, hcounts]
    rfl
  exact ⟨hreach, hquiet, (validate_eq_nil_iff hreach).mp hquiet⟩

end ClassAtlas.Validation
