import ClassAtlas.Java.Imports
import ClassAtlas.Proofs.InferredEdges
import ClassAtlas.Proofs.NamesInTypes

/-! # What a name is imported as, and what inference takes it to mean

Two parts of the program give a meaning to a simple name in the types of a classifier. Inference takes
the first classifier of that name in the classifier's own namespace, or else the first one anywhere;
the imports of the classifier's unit take the first one anywhere. They agree unless a classifier of
another namespace comes before the one in the own namespace: then the foreign one is imported, and the
name no longer means what the diagram says. -/

namespace ClassAtlas.Java

open Inference (Scope analyze bareName lastSegment Calls)

/-! ## Agreement -/

/-- The names in the types of a classifier's members. -/
def memberNames (c : Classifier) : List String := (memberTypes c).flatMap TypeNames.ofText

/-- What a classifier says of its supertypes. -/
def declaredSupertypes (c : Classifier) : List String :=
  c.declaredSuperclass.toList ++ c.declaredInterfaces

/-- The imports of a classifier within its diagram, with the relationships that inference finds. -/
def importsInferred (d : Diagram) (defaultNamespace : String) (withSupertypes : Bool) (supply : Supply)
    (c : Classifier) : List String :=
  imports ⟨d.classifiers.map (·.toEndpoint), defaultNamespace⟩ c
    (analyze d [] withSupertypes supply).1.relationships

/-- The imports of a classifier let a simple name mean a certain classifier: what has to be imported is,
and nothing else is imported under that name. -/
structure Agree (imported : List String) (c target : Classifier) (name : String) : Prop where
  present : target.namespaceName ≠ "" → target.namespaceName ≠ c.namespaceName →
    target.qualifiedName ∈ imported
  alone : ∀ q ∈ imported, lastSegment q.toList = name.toList →
    q = target.qualifiedName ∧ target.namespaceName ≠ c.namespaceName

/-- A classifier of another namespace comes before the one of this name in the own namespace. -/
def PassedOver (d : Diagram) (c : Classifier) (name : String) : Prop :=
  ∃ first, d.classifiers.find? (·.name == name) = some first ∧ first.namespaceName ≠ "" ∧
    first.namespaceName ≠ c.namespaceName ∧
    ∃ own ∈ d.classifiers, own.name = name ∧ own.namespaceName = c.namespaceName

/-! ## What is imported -/

section Imports

variable {scope : ImportScope} {c : Classifier} {relationships : List Relationship} {q name : String}

theorem mem_sortedDistinct {texts : List String} : q ∈ sortedDistinct texts ↔ q ∈ texts := by
  rw [sortedDistinct, List.mem_mergeSort, List.mem_eraseDups]

theorem mem_imports : q ∈ imports scope c relationships ↔
    (∃ name ∈ memberNames c, nameImport scope c name = some q) ∨
    ∃ r ∈ relationships, r.source.key = c.key ∧ importOf c r.target = some q := by
  simp only [imports, memberNames, mem_sortedDistinct, List.mem_append, List.mem_flatMap,
    List.mem_filterMap, List.mem_filter, beq_iff_eq, and_assoc]
  refine or_congr_left ?_
  constructor
  · rintro ⟨t, ht, name, hname, hq⟩
    exact ⟨name, ⟨t, ht, hname⟩, hq⟩
  · rintro ⟨name, ⟨t, ht, hname⟩, hq⟩
    exact ⟨t, ht, name, hname, hq⟩

theorem importOf_eq_some {target : Endpoint} : importOf c target = some q ↔ target.key ≠ c.key ∧
    target.namespaceName ≠ "" ∧ target.namespaceName ≠ c.namespaceName ∧
    target.qualifiedName = q := by
  simp [importOf, and_assoc]

/-- The import of a simple name ends in that name. -/
theorem lastSegment_simpleImport (hpoint : '.' ∉ name.toList)
    (h : simpleImport scope c name = some q) : lastSegment q.toList = name.toList := by
  rw [simpleImport_string] at h
  split at h
  · cases h
  · split at h
    · rename_i target hfound
      obtain ⟨-, -, -, rfl⟩ := importOf_eq_some.mp h
      have hname : target.name = name := by simpa using List.find?_some hfound
      subst hname
      exact Inference.lastSegment_qualify hpoint
    · split at h
      · cases h
      · cases h
        have htext : (scope.defaultNamespace ++ "." ++ name).toList =
            scope.defaultNamespace.toList ++ '.' :: name.toList := by simp
        rw [htext, Inference.lastSegment_append hpoint]

theorem point_notMem_firstSegment : '.' ∉ (String.ofList (firstSegment name)).toList := by
  rw [String.toList_ofList, firstSegment]
  intro h
  simpa using List.mem_takeWhile_imp h

/-- A name in a type is imported under its last segment as it stands, or as a simple name. -/
theorem nameImport_cases (h : nameImport scope c name = some q) :
    ('.' ∈ name.toList ∧ q = name) ∨
      simpleImport scope c (String.ofList (lastSegment q.toList)) = some q := by
  have hsimple : ∀ {s}, '.' ∉ s.toList → simpleImport scope c s = some q →
      simpleImport scope c (String.ofList (lastSegment q.toList)) = some q := by
    intro s hpoint hs
    rwa [lastSegment_simpleImport hpoint hs, String.ofList_toList]
  rw [nameImport, String.contains_char_eq] at h
  split at h
  · rename_i hpoint
    split at h
    · exact .inr (hsimple point_notMem_firstSegment h)
    · split at h
      · cases h
      · cases h
        exact .inl ⟨of_decide_eq_true hpoint, rfl⟩
  · rename_i hpoint
    exact .inr (hsimple (by simpa using hpoint) h)

/-- A simple name is imported as the first classifier of that name. -/
theorem simpleImport_first {classifiers : List Classifier} {defaultNamespace : String}
    {first : Classifier} (hneeds : needsNoImport c name = false)
    (hfirst : classifiers.find? (·.name == name) = some first) :
    simpleImport ⟨classifiers.map (·.toEndpoint), defaultNamespace⟩ c name =
      importOf c first.toEndpoint := by
  have hfound : (classifiers.map (·.toEndpoint)).find? (·.name == name) = some first.toEndpoint := by
    rw [List.find?_map]
    exact congrArg (Option.map _) hfirst
  rw [simpleImport_string, hneeds, hfound]
  rfl

end Imports

/-! ## What is meant -/

section Meanings

variable {w : Identity String} {d : Diagram} {c target : Classifier} {name : String}

/-- The classifier that a simple name means: one in the owner's namespace if there is one. -/
theorem namespace_of_lookUp
    (h : ((⟨d.classifiers, []⟩ : Scope).lookUp c name).target? = some target) :
    target ∈ d.classifiers ∧ target.name = name ∧
    ((∃ own ∈ d.classifiers, own.name = name ∧ own.namespaceName = c.namespaceName) →
      target.namespaceName = c.namespaceName) ∧
    (target.namespaceName ≠ c.namespaceName →
      d.classifiers.find? (·.name == name) = some target) := by
  rw [Scope.lookUp_target, Option.or_eq_some_iff] at h
  rcases h with hown | ⟨hnone, hfirst⟩
  · have hboth := List.find?_some hown
    rw [Bool.and_eq_true, beq_iff_eq, beq_iff_eq] at hboth
    exact ⟨List.mem_of_find?_eq_some hown, hboth.1, fun _ => hboth.2, fun hne => absurd hboth.2 hne⟩
  · refine ⟨List.mem_of_find?_eq_some hfirst, by simpa using List.find?_some hfirst, ?_,
      fun _ => hfirst⟩
    rintro ⟨own, hown, hname, hns⟩
    have hnot := List.find?_eq_none.mp hnone own hown
    simp [hname, hns] at hnot

/-- Whatever text an edge comes of, it is no dotted name that ends in a name that dotted names do not
end in. -/
theorem exists_text_of_calls {withSupertypes : Bool} {b : Classifier} {kind : RelationshipKind}
    (hmembers : ∀ m ∈ memberNames c, '.' ∈ m.toList → lastSegment m.toList ≠ name.toList)
    (hdeclared : ∀ s ∈ declaredSupertypes c, '.' ∈ bareName s → lastSegment (bareName s) ≠ name.toList)
    (h : Calls ⟨d.classifiers, []⟩ withSupertypes c b kind) :
    ∃ text, (⟨d.classifiers, []⟩ : Scope).resolve c text = some b ∧
      ('.' ∈ bareName text → lastSegment (bareName text) ≠ name.toList) := by
  have hmember : ∀ t ∈ memberTypes c, ∀ m ∈ TypeNames.ofText t, '.' ∈ bareName m →
      lastSegment (bareName m) ≠ name.toList := by
    intro t ht m hm
    rw [Inference.bareName_eq (TypeNames.bare_of_mem_ofText hm).1]
    exact hmembers m (List.mem_flatMap.mpr ⟨t, ht, hm⟩)
  cases h with
  | superclass wanted declared means =>
    exact ⟨_, means, hdeclared _ (by simp [declaredSupertypes, declared])⟩
  | listed wanted declared means =>
    exact ⟨_, means, hdeclared _ (by simp [declaredSupertypes, declared])⟩
  | @field f m member named means =>
    refine ⟨m, means, hmember f.typeName ?_ m named⟩
    rw [memberTypes_string]
    exact List.mem_append_left _ (List.mem_map_of_mem member)
  | @returned op type m member typed named means =>
    refine ⟨m, means, hmember type ?_ m named⟩
    rw [memberTypes_string]
    exact List.mem_append_right _ (List.mem_flatMap.mpr ⟨op, member, by simp [typed]⟩)
  | @parameter op p m member taken named means =>
    refine ⟨m, means, hmember p.typeName ?_ m named⟩
    rw [memberTypes_string]
    refine List.mem_append_right _ (List.mem_flatMap.mpr ⟨op, member, ?_⟩)
    exact List.mem_append_right _ (List.mem_map_of_mem taken)

/-- A text that means a classifier is its qualified name, or there is a simple name that means it. -/
theorem lookUp_of_resolve {text : String} {b : Classifier}
    (h : (⟨d.classifiers, []⟩ : Scope).resolve c text = some b) :
    ('.' ∈ bareName text ∧ b.qualifiedName.toList = bareName text) ∨
      ∃ s, '.' ∉ s.toList ∧ ((⟨d.classifiers, []⟩ : Scope).lookUp c s).target? = some b := by
  rcases Scope.resolve_cases h with hqualified | hsimple
  · exact .inl hqualified
  · refine .inr ⟨_, ?_, hsimple⟩
    rw [String.toList_ofList]
    exact Inference.point_notMem_lastSegment _

/-- Where dotted names end otherwise, an edge to a classifier that is known under a simple name comes of
that simple name. -/
theorem target_of_calls {withSupertypes : Bool} {b : Classifier} {kind : RelationshipKind}
    (hmeans : ((⟨d.classifiers, []⟩ : Scope).lookUp c name).target? = some target)
    (hmembers : ∀ m ∈ memberNames c, '.' ∈ m.toList → lastSegment m.toList ≠ name.toList)
    (hdeclared : ∀ s ∈ declaredSupertypes c, '.' ∈ bareName s → lastSegment (bareName s) ≠ name.toList)
    (h : Calls ⟨d.classifiers, []⟩ withSupertypes c b kind)
    (hlast : lastSegment b.qualifiedName.toList = name.toList) : b = target := by
  obtain ⟨text, hresolve, htext⟩ := exists_text_of_calls hmembers hdeclared h
  rcases lookUp_of_resolve hresolve with ⟨hdotted, heq⟩ | ⟨s, hs, hfound⟩
  · rw [heq] at hlast
    exact absurd hlast (htext hdotted)
  · obtain ⟨-, rfl, -⟩ := namespace_of_lookUp hfound
    have hname : b.name = name := by
      rw [ClassifierOf.qualifiedName, Inference.lastSegment_qualify hs] at hlast
      exact String.toList_inj.mp hlast
    rw [hname, hmeans] at hfound
    exact (Option.some.inj hfound).symm

/-- Every import under the simple name is that of the first classifier of the name or of the meant one. -/
theorem importOf_of_mem_imports {first : Classifier} (h : Reachable w d) (hc : c ∈ d.classifiers)
    (hneeds : needsNoImport c name = false)
    (hmeans : ((⟨d.classifiers, []⟩ : Scope).lookUp c name).target? = some target)
    (hfirst : d.classifiers.find? (·.name == name) = some first)
    (hmembers : ∀ m ∈ memberNames c, '.' ∈ m.toList → lastSegment m.toList ≠ name.toList)
    (hdeclared : ∀ s ∈ declaredSupertypes c, '.' ∈ bareName s → lastSegment (bareName s) ≠ name.toList)
    {defaultNamespace : String} {withSupertypes : Bool} {supply : Supply} {q : String}
    (hq : q ∈ importsInferred d defaultNamespace withSupertypes supply c)
    (hlast : lastSegment q.toList = name.toList) :
    importOf c first.toEndpoint = some q ∨ importOf c target.toEndpoint = some q := by
  rcases mem_imports.mp hq with ⟨m, hm, hmq⟩ | ⟨r, hr, hsource, hrq⟩
  · rcases nameImport_cases hmq with ⟨hdotted, rfl⟩ | hsimple
    · exact absurd hlast (hmembers q hm hdotted)
    · rw [hlast, String.ofList_toList, simpleImport_first hneeds hfirst] at hsimple
      exact .inl hsimple
  · have hexact := Inference.exact_of_ends h (Inference.found_ends h [] withSupertypes supply)
    obtain ⟨a, ha, b, hb, hra, hrb, hne⟩ := hexact.proper r hr
    rw [hra] at hsource
    obtain rfl := h.tracked.eq_of_key ha hc hsource
    have hcalls := (hexact.complete a ha b hb hne r.kind).mp
      (List.mem_map.mpr ⟨r, hr, by rw [Inference.triple, hra, hrb]; rfl⟩)
    rw [hrb] at hrq
    have hbq : b.qualifiedName = q := (importOf_eq_some.mp hrq).2.2.2
    obtain rfl := target_of_calls hmeans hmembers hdeclared hcalls (hbq ▸ hlast)
    exact .inr hrq

/-- Imports and inference agree on a simple name exactly when no classifier of another namespace stands
before the one in the own namespace. -/
theorem imports_agree_iff (h : Reachable w d) (hc : c ∈ d.classifiers) (hname : name ∈ memberNames c)
    (hpoint : '.' ∉ name.toList) (hneeds : needsNoImport c name = false)
    (hmeans : (⟨d.classifiers, []⟩ : Scope).resolve c name = some target)
    (hmembers : ∀ m ∈ memberNames c, '.' ∈ m.toList → lastSegment m.toList ≠ name.toList)
    (hdeclared : ∀ s ∈ declaredSupertypes c, '.' ∈ bareName s → lastSegment (bareName s) ≠ name.toList)
    (defaultNamespace : String) (withSupertypes : Bool) (supply : Supply) :
    Agree (importsInferred d defaultNamespace withSupertypes supply c) c target name ↔
      ¬ PassedOver d c name := by
  obtain ⟨t, -, hnamed⟩ := List.mem_flatMap.mp hname
  obtain ⟨hbare, hnonempty⟩ := TypeNames.bare_of_mem_ofText hnamed
  rw [Scope.resolve_simple hbare hnonempty hpoint] at hmeans
  obtain ⟨htarget, rfl, hown, hmeant⟩ := namespace_of_lookUp hmeans
  obtain ⟨first, hfirst⟩ : ∃ first, d.classifiers.find? (·.name == target.name) = some first := by
    rw [← Option.isSome_iff_exists, List.find?_isSome]
    exact ⟨target, htarget, beq_self_eq_true _⟩
  have hfname : first.name = target.name := by simpa using List.find?_some hfirst
  have hkey : first.key ≠ c.key := by
    intro hkey
    rw [h.tracked.eq_of_key (List.mem_of_find?_eq_some hfirst) hc hkey] at hfname
    simp [needsNoImport, hfname] at hneeds
  -- The first classifier of the name is imported, unless it can be seen without.
  have hpresent : ∀ q, importOf c first.toEndpoint = some q →
      q ∈ importsInferred d defaultNamespace withSupertypes supply c := by
    intro q hq
    refine mem_imports.mpr (.inl ⟨target.name, hname, ?_⟩)
    rw [nameImport, String.contains_char_eq, decide_eq_false hpoint, if_neg Bool.false_ne_true,
      simpleImport_first hneeds hfirst]
    exact hq
  constructor
  · rintro hagree ⟨first', hfirst', hns, hne, hexists⟩
    obtain rfl : first = first' := Option.some.inj (hfirst.symm.trans hfirst')
    have hin := hpresent first.qualifiedName (importOf_eq_some.mpr ⟨hkey, hns, hne, rfl⟩)
    have hlast : lastSegment first.qualifiedName.toList = target.name.toList := by
      rw [← hfname] at hpoint ⊢
      exact Inference.lastSegment_qualify hpoint
    exact (hagree.alone _ hin hlast).2 (hown hexists)
  · intro hnot
    refine ⟨fun hns hne => ?_, fun q hq hlast => ?_⟩
    · obtain rfl : first = target := Option.some.inj (hfirst.symm.trans (hmeant hne))
      exact hpresent _ (importOf_eq_some.mpr ⟨hkey, hns, hne, rfl⟩)
    · rcases importOf_of_mem_imports h hc hneeds hmeans hfirst hmembers hdeclared hq hlast with
        hq | hq
      · obtain ⟨-, hns, hne, rfl⟩ := importOf_eq_some.mp hq
        have htns : target.namespaceName ≠ c.namespaceName := fun htns =>
          hnot ⟨first, hfirst, hns, hne, target, htarget, rfl, htns⟩
        obtain rfl : first = target := Option.some.inj (hfirst.symm.trans (hmeant htns))
        exact ⟨rfl, htns⟩
      · obtain ⟨-, -, hne, rfl⟩ := importOf_eq_some.mp hq
        exact ⟨rfl, hne⟩

/-- An order of items in a shop, with the items of a stock before those of the shop: the stock's are
imported, the shop's are meant. -/
theorem imports_agree_iff_shadowed :
    let foreign := { bareClass 0 "i" with name := "Item", namespaceName := "stock" }
    let own := { bareClass 1 "l" with name := "Item", namespaceName := "shop" }
    let order := { bareClass 2 "o" with
      name := "Order", namespaceName := "shop"
      fields := [⟨"line", "List<Item>", none, .private, false, false⟩] }
    let w : Identity String := ⟨fun key => if key = 0 then "i" else if key = 1 then "l" else "o",
      fun _ => 0, fun _ => 0⟩
    let d : Diagram := { (DiagramOf.empty "shop" "" none none none {}).1 with
      elements := [.classifier foreign, .classifier own, .classifier order]
      index := [("i", 0), ("l", 1), ("o", 2)] }
    Reachable w d ∧ (⟨d.classifiers, []⟩ : Scope).resolve order "Item" = some own ∧
      PassedOver d order "Item" ∧
      ¬ Agree (importsInferred d "java.util" true {} order) order own "Item" := by
  intro foreign own order w d
  have hreach : Reachable w d := by
    have hnew : Reachable w (DiagramOf.empty "shop" "" none none none {}).1 := .new ..
    have hforeign := hnew.withClassifier (c := foreign) rfl rfl
    have hown := hforeign.withClassifier (c := own) rfl rfl
    exact hown.withClassifier (c := order) rfl rfl
  have hnames : memberNames order = ["List", "Item"] := by decide +kernel
  have hbare : TypeNames.Bare "Item".toList :=
    (TypeNames.bare_of_mem_ofText (show "Item" ∈ TypeNames.ofText "Item" by decide +kernel)).1
  have hmeans : (⟨d.classifiers, []⟩ : Scope).resolve order "Item" = some own := by
    rw [Scope.resolve_simple hbare (by decide) (by decide)]
    rfl
  have hpassed : PassedOver d order "Item" :=
    ⟨foreign, rfl, by decide, by decide, own, by simp [d, DiagramOf.classifiers, ElementOf.classifier?],
      rfl, rfl⟩
  have hagree := imports_agree_iff hreach (c := order)
    (by simp [d, DiagramOf.classifiers, ElementOf.classifier?]) (by rw [hnames]; decide) (by decide)
    (by decide) hmeans (by rw [hnames]; decide) (List.forall_mem_nil _) "java.util" true {}
  exact ⟨hreach, hmeans, hpassed, fun h => hagree.mp h hpassed⟩

end Meanings

end ClassAtlas.Java
