import ClassAtlas.Proofs.Reachable
import ClassAtlas.Validation
import Mathlib.Logic.Relation

/-! # The search for inheritance cycles

The search looks for a key along edges that start from ids, and uses up the edges of a classifier when
it passes it. It finds the key exactly when a path of edges leads there: of a path that passes a
classifier several times, what follows the last pass needs none of the edges used up. In a reachable
diagram ids and keys tell the same classifiers apart, so the path is one along inheritance edges. The
report then names the classifiers that lie on a cycle and passes over those that only lead to one. -/

namespace ClassAtlas.Validation

open Relation (ReflTransGen TransGen)

/-- One edge of the search. -/
def Leads (edges : List (Parent String)) (a b : Endpoint) : Prop := b ∈ parentsOf edges a.id

theorem mem_parentsOf {edges : List (Parent String)} {id : String} {e : Endpoint} :
    e ∈ parentsOf edges id ↔ (id, e) ∈ edges := by
  simp [parentsOf]

theorem mem_parentsOf_apartFrom {edges : List (Parent String)} {id gone : String} {e : Endpoint} :
    e ∈ parentsOf (apartFrom edges gone) id ↔ e ∈ parentsOf edges id ∧ id ≠ gone := by
  simp [mem_parentsOf, apartFrom]

theorem Leads.of_apartFrom {edges : List (Parent String)} {gone : String} {a b : Endpoint}
    (h : Leads (apartFrom edges gone) a b) : Leads edges a b :=
  (mem_parentsOf_apartFrom.mp h).1

/-- A path either avoids the edges of an id, or does so after its last pass of that id. -/
theorem path_apartFrom {edges : List (Parent String)} {p q : Endpoint} (gone : String)
    (h : ReflTransGen (Leads edges) p q) :
    ReflTransGen (Leads (apartFrom edges gone)) p q ∨
      ∃ p' ∈ parentsOf edges gone, ReflTransGen (Leads (apartFrom edges gone)) p' q := by
  induction h using ReflTransGen.head_induction_on with
  | refl => exact .inl .refl
  | @head a b hab _ ih =>
    rcases ih with ih | ih
    · by_cases hgone : a.id = gone
      · exact .inr ⟨b, hgone ▸ hab, ih⟩
      · exact .inl (.head (mem_parentsOf_apartFrom.mpr ⟨hab, hgone⟩) ih)
    · exact .inr ih

/-- Of a classifier whose edges are used up, no path leads elsewhere. -/
theorem path_from_gone {edges : List (Parent String)} {p q : Endpoint}
    (h : ReflTransGen (Leads (apartFrom edges p.id)) p q) : p = q := by
  rcases ReflTransGen.cases_head h with h | ⟨b, hb, -⟩
  · exact h
  · exact absurd rfl (mem_parentsOf_apartFrom.mp hb).2

theorem reaches_iff (goal : Nat) (edges : List (Parent String)) (pending : List Endpoint) :
    reaches goal edges pending = true ↔
      ∃ p ∈ pending, ∃ q, ReflTransGen (Leads edges) p q ∧ q.key = goal := by
  fun_induction reaches goal edges pending with
  | case1 edges => simp
  | case2 edges here pending hkey =>
    have hkey : here.key = goal := by simpa using hkey
    simp only [true_iff]
    exact ⟨here, List.mem_cons_self, here, .refl, hkey⟩
  | case3 edges here pending hkey ih =>
    have hne : here.key ≠ goal := by simpa using hkey
    rw [ih]
    constructor
    · intro hgiven
      obtain ⟨p, hp, q, hpath, hq⟩ := hgiven
      have hpath := ReflTransGen.mono (fun _ _ => Leads.of_apartFrom) _ _ hpath
      rcases List.mem_append.mp hp with hp | hp
      · exact ⟨here, List.mem_cons_self, q, .head hp hpath, hq⟩
      · exact ⟨p, List.mem_cons_of_mem _ hp, q, hpath, hq⟩
    · intro hgiven
      obtain ⟨p, hp, q, hpath, hq⟩ := hgiven
      rcases path_apartFrom here.id hpath with hpath | ⟨p', hp', hpath⟩
      · rcases List.mem_cons.mp hp with rfl | hp
        · rw [path_from_gone hpath] at hne
          exact absurd hq hne
        · exact ⟨p, List.mem_append_right _ hp, q, hpath, hq⟩
      · exact ⟨p', List.mem_append_left _ hp', q, hpath, hq⟩

/-! ## In a reachable diagram -/

section Reachable

variable {w : Identity String} {d : Diagram}

/-- An inheritance edge between the classifiers of two keys. -/
def Inherits (d : Diagram) (child parent : Nat) : Prop :=
  ∃ r ∈ d.relationships, r.kind = .inheritance ∧ r.source.key = child ∧ r.target.key = parent

theorem mem_parents {id : String} {e : Endpoint} : (id, e) ∈ parents d ↔
    ∃ r ∈ d.relationships, r.kind = .inheritance ∧ r.source.id = id ∧ r.target = e := by
  simp [parents, and_assoc]

/-- Between classifiers of the diagram the search sees the inheritance edges and no others. -/
theorem leads_iff (h : Reachable w d) {a b : Classifier} (ha : a ∈ d.classifiers)
    (hb : b ∈ d.classifiers) :
    Leads (parents d) a.toEndpoint b.toEndpoint ↔ Inherits d a.key b.key := by
  rw [Leads, mem_parentsOf, mem_parents]
  constructor
  · intro hgiven
    obtain ⟨r, hr, hkind, hs, ht⟩ := hgiven
    refine ⟨r, hr, hkind, ?_, by rw [ht]; rfl⟩
    obtain ⟨c, hc, hcs⟩ := h.source_mem hr
    rw [← hcs] at hs
    rw [← hcs, ← h.tracked.eq_of_id hc ha hs]
    rfl
  · intro hgiven
    obtain ⟨r, hr, hkind, hs, ht⟩ := hgiven
    obtain ⟨c, hc, hcs⟩ := h.source_mem hr
    obtain ⟨c', hc', hct⟩ := h.target_mem hr
    rw [← hcs] at hs
    rw [← hct] at ht
    refine ⟨r, hr, hkind, ?_, ?_⟩
    · rw [← hcs, h.tracked.eq_of_key hc ha hs]
    · rw [← hct, h.tracked.eq_of_key hc' hb ht]

theorem path_iff (h : Reachable w d) {a : Classifier} (ha : a ∈ d.classifiers) {goal : Nat} :
    (∃ q, ReflTransGen (Leads (parents d)) a.toEndpoint q ∧ q.key = goal) ↔
      ReflTransGen (Inherits d) a.key goal := by
  constructor
  · intro hgiven
    obtain ⟨q, hpath, rfl⟩ := hgiven
    suffices hstand : ∃ c ∈ d.classifiers, c.toEndpoint = q ∧
        ReflTransGen (Inherits d) a.key c.key by
      obtain ⟨c, -, hc, hclimb⟩ := hstand
      rw [← hc]
      exact hclimb
    induction hpath with
    | refl => exact ⟨a, ha, rfl, .refl⟩
    | @tail p q _ hstep ih =>
      obtain ⟨c, hc, rfl, hpath⟩ := ih
      obtain ⟨r, hr, -, -, ht⟩ := mem_parents.mp (mem_parentsOf.mp hstep)
      obtain ⟨c', hc', hct⟩ := h.target_mem hr
      rw [← ht, ← hct] at hstep ⊢
      exact ⟨c', hc', rfl, hpath.tail ((leads_iff h hc hc').mp hstep)⟩
  · intro hpath
    suffices hstand : ∃ c ∈ d.classifiers, c.key = goal ∧
        ReflTransGen (Leads (parents d)) a.toEndpoint c.toEndpoint by
      obtain ⟨c, -, hk, hpath⟩ := hstand
      exact ⟨_, hpath, hk⟩
    induction hpath with
    | refl => exact ⟨a, ha, rfl, .refl⟩
    | @tail j k _ hstep ih =>
      obtain ⟨c, hc, rfl, hpath⟩ := ih
      obtain ⟨r, hr, -, -, ht⟩ := id hstep
      obtain ⟨c', hc', hct⟩ := h.target_mem hr
      have hk : c'.key = k := by rw [← ht, ← hct]; rfl
      rw [← hk] at hstep
      exact ⟨c', hc', hk, hpath.tail ((leads_iff h hc hc').mpr hstep)⟩

/-- The search started at a classifier finds it again exactly when inheritance leads back to it. -/
theorem isOnCycle_iff (h : Reachable w d) {c : Classifier} (hc : c ∈ d.classifiers) :
    isOnCycle (parents d) c = true ↔ TransGen (Inherits d) c.key c.key := by
  rw [isOnCycle, reaches_iff, TransGen.head'_iff]
  constructor
  · intro hgiven
    obtain ⟨p, hp, hpath⟩ := hgiven
    obtain ⟨r, hr, -, -, ht⟩ := mem_parents.mp (mem_parentsOf.mp hp)
    obtain ⟨c', hc', hct⟩ := h.target_mem hr
    rw [← ht, ← hct] at hp hpath
    exact ⟨c'.key, (leads_iff h hc hc').mp hp, (path_iff h hc').mp hpath⟩
  · intro hgiven
    obtain ⟨k, hstep, hpath⟩ := hgiven
    obtain ⟨r, hr, -, -, ht⟩ := id hstep
    obtain ⟨c', hc', hct⟩ := h.target_mem hr
    have hk : c'.key = k := by rw [← ht, ← hct]; rfl
    rw [← hk] at hstep hpath
    exact ⟨c'.toEndpoint, (leads_iff h hc hc').mpr hstep, (path_iff h hc').mpr hpath⟩

/-! ## The report -/

/-- The report names every classifier from which inheritance leads back to it and no other, each once
and in the order of the diagram. Beside the classifiers it depends only on what inherits from what: on
no edge of another kind, and not on how often or in which order inheritance was drawn. -/
theorem inheritanceCycles_exact (h : Reachable w d) : ∃ found : List Classifier,
    (inheritanceCycles d).map (·.message) =
        found.map (fun c => "Inheritance cycle detected involving " ++ c.qualifiedName) ∧
      found.Sublist d.classifiers ∧ (found.map (·.key)).Nodup ∧
      (∀ c ∈ d.classifiers, c ∈ found ↔ TransGen (Inherits d) c.key c.key) ∧
      ∀ (w' : Identity String) (d' : Diagram), Reachable w' d' → d'.classifiers = d.classifiers →
        (∀ child parent, Inherits d' child parent ↔ Inherits d child parent) →
        inheritanceCycles d' = inheritanceCycles d := by
  have hsublist : (d.classifiers.filter (isOnCycle (parents d))).Sublist d.classifiers :=
    List.filter_sublist
  refine ⟨_, ?_, hsublist, h.tracked.nodup.sublist (hsublist.map _), fun c hc => ?_, ?_⟩
  · rw [inheritanceCycles, List.map_map]
    rfl
  · rw [List.mem_filter, and_iff_right hc, isOnCycle_iff h hc]
  · intro w' d' h' hclassifiers hinherits
    have hsame : Inherits d' = Inherits d :=
      funext₂ fun child parent => propext (hinherits child parent)
    rw [inheritanceCycles, inheritanceCycles, hclassifiers]
    refine congrArg _ (List.filter_congr fun c hc => ?_)
    rw [Bool.eq_iff_iff, isOnCycle_iff h hc, isOnCycle_iff h' (hclassifiers ▸ hc), hsame]

/-- Two classes inherit from each other, a third from the first of them, which uses it, and a fourth
from itself. All but the third are reported: what leads back to it is no inheritance. -/
theorem inheritanceCycles_exact_aside :
    let a := bareClass 0 "a"
    let b := bareClass 1 "b"
    let aside := bareClass 2 "aside"
    let loop := bareClass 3 "loop"
    let w : Identity String := ⟨fun key => if key = 0 then "a" else if key = 1 then "b" else
        if key = 2 then "aside" else "loop",
      fun key => if key = 1 then 1 else if key = 2 then 2 else if key = 4 then 3 else 0,
      fun key => if key = 0 then 1 else if key = 3 then 2 else if key = 4 then 3 else 0⟩
    let d : Diagram := { (DiagramOf.empty "shapes" "" none none none {}).1 with
      elements := [.classifier a, .classifier b, .classifier aside, .classifier loop,
        .relationship (bareEdge 0 a b .inheritance), .relationship (bareEdge 1 b a .inheritance),
        .relationship (bareEdge 2 aside a .inheritance), .relationship (bareEdge 3 a aside .dependency),
        .relationship (bareEdge 4 loop loop .inheritance)]
      index := [("a", 0), ("b", 1), ("aside", 2), ("loop", 3)] }
    Reachable w d ∧ inheritanceCycles d =
        [.inheritanceCycle "a", .inheritanceCycle "b", .inheritanceCycle "loop"] ∧
      ¬ TransGen (Inherits d) aside.key aside.key := by
  intro a b aside loop w d
  have hreach : Reachable w d := by
    have hnew : Reachable w (DiagramOf.empty "shapes" "" none none none {}).1 := .new ..
    have htwo := (hnew.withClassifier (c := a) rfl rfl).withClassifier (c := b) rfl rfl
    have hall := (htwo.withClassifier (c := aside) rfl rfl).withClassifier (c := loop) rfl rfl
    have ha : a ∈ [a, b, aside, loop] := by simp
    have hb : b ∈ [a, b, aside, loop] := by simp
    have haside : aside ∈ [a, b, aside, loop] := by simp
    have hloop : loop ∈ [a, b, aside, loop] := by simp
    have h0 := hall.withRelationship (r := bareEdge 0 a b .inheritance) ha hb rfl rfl ⟨rfl, rfl⟩ rfl rfl
    have h1 := h0.withRelationship (r := bareEdge 1 b a .inheritance) hb ha rfl rfl ⟨rfl, rfl⟩ rfl rfl
    have h2 := h1.withRelationship (r := bareEdge 2 aside a .inheritance) haside ha rfl rfl
      ⟨rfl, rfl⟩ rfl rfl
    have h3 := h2.withRelationship (r := bareEdge 3 a aside .dependency) ha haside rfl rfl
      ⟨rfl, rfl⟩ rfl rfl
    exact h3.withRelationship (r := bareEdge 4 loop loop .inheritance) hloop hloop rfl rfl
      ⟨rfl, rfl⟩ rfl rfl
  have hreported : inheritanceCycles d =
      [.inheritanceCycle "a", .inheritanceCycle "b", .inheritanceCycle "loop"] := by
    decide +kernel
  refine ⟨hreach, hreported, fun hcycle => ?_⟩
  obtain ⟨found, hreport, -, -, hiff, -⟩ := inheritanceCycles_exact hreach
  have hmem : aside ∈ d.classifiers := by simp [d, DiagramOf.classifiers, ElementOf.classifier?]
  have hnamed : "Inheritance cycle detected involving aside" ∈
      (inheritanceCycles d).map (·.message) := by
    rw [hreport]
    exact List.mem_map_of_mem ((hiff aside hmem).mpr hcycle)
  rw [hreported] at hnamed
  exact absurd hnamed (by decide)

end Reachable

end ClassAtlas.Validation
