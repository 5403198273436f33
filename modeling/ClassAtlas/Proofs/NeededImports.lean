import ClassAtlas.Proofs.ImportedMeanings
import Mathlib.Data.String.Basic

/-! # Every import is needed, and every name is in scope

The types of a classifier's members refer to simple names: to undotted names, and to the first segment
of a dotted name that an upper-case letter starts. Each of them can be used in the unit, by an import
that ends in it or without one, and nothing is imported but for one of them, for an edge, or for a name
that already says where it lives. The imports come in strictly increasing order, so none comes twice. -/

namespace ClassAtlas.Java

open Inference (lastSegment)

/-! ## What is referred to -/

/-- The simple names that the types of a classifier's members refer to. -/
inductive Refers (c : Classifier) : String → Prop where
  | whole {name : String} : name ∈ memberNames c → '.' ∉ name.toList → Refers c name
  | outer {name : String} : name ∈ memberNames c → '.' ∈ name.toList → headIsUpper name = true →
      Refers c (String.ofList (firstSegment name))

/-- A simple name that is referred to and means nothing by itself: no type that is always visible, no
type variable, and not the classifier. -/
structure Asked (c : Classifier) (name : String) : Prop where
  referred : Refers c name
  visible : name ∉ alwaysVisible
  variableName : isTypeVariable name = false
  own : name ≠ c.name

/-- The first classifier of a name in a diagram. -/
def First (d : Diagram) (name : String) (first : Classifier) : Prop :=
  d.classifiers.find? (·.name == name) = some first

/-- A diagram has no classifier of a name. -/
def Unknown (d : Diagram) (name : String) : Prop := ∀ k ∈ d.classifiers, k.name ≠ name

/-- A simple name that a unit can use without an import. -/
inductive InScope (d : Diagram) (c : Classifier) (defaultNamespace name : String) : Prop where
  | near {first : Classifier} : First d name first → first.namespaceName = c.namespaceName ∨
      first.namespaceName = "" ∨ first.key = c.key → InScope d c defaultNamespace name
  | assumed : Unknown d name → defaultNamespace = "" ∨ defaultNamespace = c.namespaceName →
      InScope d c defaultNamespace name

/-- What has to be imported for a simple name. -/
inductive Supplies (d : Diagram) (c : Classifier) (defaultNamespace name : String) : String → Prop where
  | far {first : Classifier} : First d name first → first.namespaceName ≠ c.namespaceName →
      first.namespaceName ≠ "" → first.key ≠ c.key →
      Supplies d c defaultNamespace name first.qualifiedName
  | assumed : Unknown d name → defaultNamespace ≠ "" → defaultNamespace ≠ c.namespaceName →
      Supplies d c defaultNamespace name (defaultNamespace ++ "." ++ name)

/-- A relationship that leads from a classifier out of its namespace. -/
structure LeadsOut (c : Classifier) (r : Relationship) : Prop where
  source : r.source.key = c.key
  named : r.target.namespaceName ≠ ""
  away : r.target.namespaceName ≠ c.namespaceName

/-- A dotted name in a member's type that says itself where it lives. -/
structure Located (c : Classifier) (name : String) : Prop where
  member : name ∈ memberNames c
  dotted : '.' ∈ name.toList
  lower : headIsUpper name = false
  foreign : name.startsWith "java.lang." = false

/-- Imports that are in order, suffice, and are all needed. -/
structure Fitting (d : Diagram) (c : Classifier) (defaultNamespace : String)
    (relationships : List Relationship) (imported : List String) : Prop where
  increasing : imported.Pairwise (· < ·)
  covered : ∀ name, Asked c name → (∃ q ∈ imported, lastSegment q.toList = name.toList) ∨
    InScope d c defaultNamespace name
  led : ∀ r ∈ relationships, LeadsOut c r → r.target.qualifiedName ∈ imported
  needed : ∀ q ∈ imported, (∃ name, Asked c name ∧ Supplies d c defaultNamespace name q) ∨
    (∃ r ∈ relationships, LeadsOut c r ∧ r.target.qualifiedName = q) ∨ Located c q

section Imports

variable {d : Diagram} {c : Classifier} {defaultNamespace name q : String}
  {relationships : List Relationship}

/-! ## In order -/

theorem nodup_eraseDups (texts : List String) : texts.eraseDups.Nodup := by
  induction hlength : texts.length using Nat.strong_induction_on generalizing texts with
  | h n ih =>
    cases texts with
    | nil => simp
    | cons text rest =>
      rw [List.eraseDups_cons, List.nodup_cons]
      refine ⟨by simp, ih _ ?_ _ rfl⟩
      have hfilter := List.length_filter_le (fun other => !other == text) rest
      rw [List.length_cons] at hlength
      omega

theorem increasing_sortedDistinct (texts : List String) : (sortedDistinct texts).Pairwise (· < ·) := by
  have hsorted : (sortedDistinct texts).Pairwise fun a b => decide (a ≤ b) = true :=
    List.pairwise_mergeSort (fun a b c => by simpa using le_trans)
      (fun a b => by simpa using le_total a b) _
  have hnodup : (sortedDistinct texts).Nodup :=
    (List.mergeSort_perm _ _).nodup_iff.mpr (nodup_eraseDups texts)
  exact hsorted.imp₂ (fun _ _ hle hne => lt_of_le_of_ne (of_decide_eq_true hle) hne) hnodup

/-! ## Simple names -/

theorem asked_iff : Asked c name ↔ Refers c name ∧ needsNoImport c name = false := by
  have hneeds : needsNoImport c name = false ↔
      name ∉ alwaysVisible ∧ isTypeVariable name = false ∧ name ≠ c.name := by
    simp [needsNoImport, and_assoc]
  rw [hneeds]
  constructor
  · intro h
    exact ⟨h.referred, h.visible, h.variableName, h.own⟩
  · rintro ⟨hrefers, hvisible, hvariable, hown⟩
    exact ⟨hrefers, hvisible, hvariable, hown⟩

theorem point_notMem_of_refers (h : Refers c name) : '.' ∉ name.toList := by
  cases h with
  | whole _ hpoint => exact hpoint
  | outer => exact point_notMem_firstSegment

/-- A simple name that is referred to is imported as one. -/
theorem exists_nameImport_of_refers (h : Refers c name) (scope : ImportScope) :
    ∃ m ∈ memberNames c, nameImport scope c m = simpleImport scope c name := by
  cases h with
  | whole hname hpoint =>
    refine ⟨name, hname, ?_⟩
    rw [nameImport, String.contains_char_eq, decide_eq_false hpoint, if_neg Bool.false_ne_true]
  | @outer m hname hpoint hupper =>
    refine ⟨m, hname, ?_⟩
    rw [nameImport, String.contains_char_eq, decide_eq_true hpoint, if_pos rfl, if_pos hupper]

/-- A name in a member's type is imported as a simple name that is referred to, or as it stands. -/
theorem refers_or_located {scope : ImportScope} (hname : name ∈ memberNames c)
    (h : nameImport scope c name = some q) :
    (∃ s, Refers c s ∧ simpleImport scope c s = some q) ∨ Located c q := by
  rw [nameImport, String.contains_char_eq] at h
  split at h
  · rename_i hpoint
    have hpoint := of_decide_eq_true hpoint
    split at h
    · rename_i hupper
      exact .inl ⟨_, .outer hname hpoint hupper, h⟩
    · rename_i hlower
      split at h
      · cases h
      · rename_i hforeign
        cases h
        exact .inr ⟨hname, hpoint, by simpa using hlower, by simpa using hforeign⟩
  · rename_i hpoint
    exact .inl ⟨name, .whole hname (by simpa using hpoint), h⟩

theorem importOf_eq_none {target : Endpoint} : importOf c target = none ↔
    target.namespaceName = c.namespaceName ∨ target.namespaceName = "" ∨ target.key = c.key := by
  simp [importOf]
  tauto

/-- A simple name that no classifier bears is assumed to live in the default namespace. -/
theorem simpleImport_unknown (hneeds : needsNoImport c name = false)
    (h : d.classifiers.find? (·.name == name) = none) :
    simpleImport ⟨d.classifiers.map (·.toEndpoint), defaultNamespace⟩ c name =
      if defaultNamespace = "" ∨ defaultNamespace = c.namespaceName then none
      else some (defaultNamespace ++ "." ++ name) := by
  have hfound : (d.classifiers.map (·.toEndpoint)).find? (·.name == name) = none := by
    rw [List.find?_map]
    exact congrArg (Option.map _) h
  simp [simpleImport, hneeds, hfound]

theorem unknown_of_find? (h : d.classifiers.find? (·.name == name) = none) : Unknown d name := by
  simpa [Unknown] using h

/-- What a simple name is imported as supplies it. -/
theorem supplies_of_simpleImport
    (h : simpleImport ⟨d.classifiers.map (·.toEndpoint), defaultNamespace⟩ c name = some q) :
    needsNoImport c name = false ∧ Supplies d c defaultNamespace name q := by
  cases hneeds : needsNoImport c name with
  | true =>
    rw [simpleImport, if_pos hneeds] at h
    cases h
  | false =>
    refine ⟨rfl, ?_⟩
    cases hfirst : d.classifiers.find? (·.name == name) with
    | some first =>
      rw [simpleImport_first hneeds hfirst] at h
      obtain ⟨hkey, hnamed, haway, rfl⟩ := importOf_eq_some.mp h
      exact .far hfirst haway hnamed hkey
    | none =>
      rw [simpleImport_unknown hneeds hfirst] at h
      split at h
      · cases h
      · rename_i haway
        cases h
        exact .assumed (unknown_of_find? hfirst) (mt .inl haway) (mt .inr haway)

/-- A simple name without an import needs none. -/
theorem inScope_of_simpleImport (hneeds : needsNoImport c name = false)
    (h : simpleImport ⟨d.classifiers.map (·.toEndpoint), defaultNamespace⟩ c name = none) :
    InScope d c defaultNamespace name := by
  cases hfirst : d.classifiers.find? (·.name == name) with
  | some first =>
    rw [simpleImport_first hneeds hfirst] at h
    exact .near hfirst (importOf_eq_none.mp h)
  | none =>
    rw [simpleImport_unknown hneeds hfirst] at h
    split at h
    · exact .assumed (unknown_of_find? hfirst) ‹_›
    · cases h

/-- In a diagram, what a relationship knows of a classifier at its end is what the classifier says. -/
theorem target_eq_of_key {w : Identity String} (h : Reachable w d) (hc : c ∈ d.classifiers) :
    ∀ r ∈ d.relationships, r.target.key = c.key → r.target = c.toEndpoint := by
  intro r hr hkey
  obtain ⟨k, hk, hknown⟩ := h.target_mem hr
  rw [← hknown] at hkey ⊢
  rw [h.tracked.eq_of_key hk hc hkey]

/-- The imports of a unit are in order, let every name be used, and are all needed. Keys stand for the
classifiers themselves, so an end under the key of the classifier is to be that classifier as it is. -/
theorem imports_fitting (d : Diagram) (c : Classifier) (defaultNamespace : String)
    (relationships : List Relationship)
    (hself : ∀ r ∈ relationships, r.target.key = c.key → r.target = c.toEndpoint) :
    Fitting d c defaultNamespace relationships
      (imports ⟨d.classifiers.map (·.toEndpoint), defaultNamespace⟩ c relationships) where
  increasing := increasing_sortedDistinct _
  covered name hname := by
    obtain ⟨m, hm, himport⟩ := exists_nameImport_of_refers hname.referred
      ⟨d.classifiers.map (·.toEndpoint), defaultNamespace⟩
    cases hq : simpleImport ⟨d.classifiers.map (·.toEndpoint), defaultNamespace⟩ c name with
    | some q =>
      refine .inl ⟨q, mem_imports.mpr (.inl ⟨m, hm, himport.trans hq⟩), ?_⟩
      exact lastSegment_simpleImport (point_notMem_of_refers hname.referred) hq
    | none => exact .inr (inScope_of_simpleImport (asked_iff.mp hname).2 hq)
  led r hr hout := by
    refine mem_imports.mpr (.inr ⟨r, hr, hout.source, importOf_eq_some.mpr ⟨?_, hout.named, hout.away, rfl⟩⟩)
    intro hkey
    exact hout.away (by rw [hself r hr hkey]; rfl)
  needed q hq := by
    rcases mem_imports.mp hq with ⟨m, hm, himport⟩ | ⟨r, hr, hsource, himport⟩
    · rcases refers_or_located hm himport with ⟨name, hrefers, hsimple⟩ | hlocated
      · obtain ⟨hneeds, hsupplies⟩ := supplies_of_simpleImport hsimple
        exact .inl ⟨name, asked_iff.mpr ⟨hrefers, hneeds⟩, hsupplies⟩
      · exact .inr (.inr hlocated)
    · obtain ⟨-, hnamed, haway, hqualified⟩ := importOf_eq_some.mp himport
      exact .inr (.inl ⟨r, hr, ⟨hsource, hnamed, haway⟩, hqualified⟩)

end Imports

/-- An order of items of a stock, which is kept in a depot and may come before another order. -/
theorem imports_fitting_order :
    let order := { bareClass 0 "o" with
      name := "Order", namespaceName := "shop"
      fields := [⟨"lines", "List<? extends Item.Line>", none, .private, false, false⟩] }
    let item := { bareClass 1 "i" with name := "Item", namespaceName := "stock" }
    let depot := { bareClass 2 "d" with name := "Depot", namespaceName := "depot" }
    let w : Identity String := ⟨fun key => ["o", "i", "d"].getD key "", fun _ => 0,
      fun key => if key = 0 then 2 else 0⟩
    let kept := bareEdge 0 order depot .association
    let d : Diagram := { (DiagramOf.empty "shop" "" none none none {}).1 with
      elements := [.classifier order, .classifier item, .classifier depot, .relationship kept,
        .relationship (bareEdge 1 order order .association)]
      index := [("o", 0), ("i", 1), ("d", 2)] }
    Reachable w d ∧ order ∈ d.classifiers ∧ LeadsOut order kept ∧
      Asked order "Item" ∧ Supplies d order "java.util" "Item" "stock.Item" ∧
      Asked order "List" ∧ Supplies d order "java.util" "List" "java.util.List" ∧
      Fitting d order "java.util" d.relationships
        (imports ⟨d.classifiers.map (·.toEndpoint), "java.util"⟩ order d.relationships) := by
  intro order item depot w kept d
  have hreach : Reachable w d := by
    have hnew : Reachable w (DiagramOf.empty "shop" "" none none none {}).1 := .new ..
    have horder := hnew.withClassifier (c := order) rfl rfl
    have hitem := horder.withClassifier (c := item) rfl rfl
    have hdepot := hitem.withClassifier (c := depot) rfl rfl
    have hkept := hdepot.withRelationship (r := kept) (a := order) (b := depot)
      (DiagramOf.mem_classifiers.mpr (by simp)) (DiagramOf.mem_classifiers.mpr (by simp)) rfl rfl
      ⟨rfl, rfl⟩ rfl rfl
    exact hkept.withRelationship (r := bareEdge 1 order order .association) (a := order) (b := order)
      (DiagramOf.mem_classifiers.mpr (by simp)) (DiagramOf.mem_classifiers.mpr (by simp)) rfl rfl
      ⟨rfl, rfl⟩ rfl rfl
  have horder : order ∈ d.classifiers := DiagramOf.mem_classifiers.mpr List.mem_cons_self
  have hnames : memberNames order = ["List", "Item.Line"] := by decide +kernel
  have hline : "Item.Line" ∈ memberNames order := by simp [hnames]
  have hitem : Refers order "Item" := .outer hline (by decide) (by decide)
  have hlist : Refers order "List" := .whole (by simp [hnames]) (by decide)
  refine ⟨hreach, horder, ⟨rfl, by decide, by decide⟩, ?_, ?_, ?_, ?_, ?_⟩
  · exact ⟨hitem, by decide, by decide, by decide⟩
  · have hfirst : First d "Item" item := rfl
    exact .far hfirst (by decide) (by decide) (by decide)
  · exact ⟨hlist, by decide, by decide, by decide⟩
  · exact .assumed (by unfold Unknown; decide) (by decide) (by decide)
  · exact imports_fitting d order "java.util" d.relationships (target_eq_of_key hreach horder)

end ClassAtlas.Java
