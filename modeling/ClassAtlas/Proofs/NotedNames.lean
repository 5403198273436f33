import ClassAtlas.Proofs.ReorderedDiagrams

/-! # The notes of inference are exact

Inference notes an ambiguity where it looks a name up, under the owner's id and the name, and passes over
it ever after. Nothing is lost that way: what a simple name means depends on the owner and the name alone,
so whatever text led to it and in whichever pass, the classifier first chosen is the one that is meant
throughout. A declared supertype that means nothing is noted as often as it is declared. -/

namespace ClassAtlas.Inference

/-! ## Simple names -/

/-- A text is understood as a simple name: as the name that it is, if it has no points, and else, if it
is no qualified name and starts with an upper-case letter, as what stands behind its last point. -/
inductive LooksUp (s : Scope) (text : String) : String → Prop where
  | simple (given : bareName text ≠ []) (pointless : '.' ∉ bareName text) :
      LooksUp s text (String.ofList (bareName text))
  | nested (pointed : '.' ∈ bareName text)
      (foreign : ∀ c ∈ s.classifiers, c.qualifiedName ≠ String.ofList (bareName text))
      (upper : startsUpper (bareName text) = true) :
      LooksUp s text (String.ofList (lastSegment (bareName text)))

section Names

variable {s : Scope} {owner chosen : Classifier} {candidates : List Classifier} {text name : String}

theorem qualified?_eq_none : s.qualified? name = none ↔ ∀ c ∈ s.classifiers, c.qualifiedName ≠ name := by
  simp [Scope.qualified?]

/-- A text that is understood as a simple name means what the name means. -/
theorem LooksUp.find_eq (h : LooksUp s text name) : s.find owner text = s.lookUp owner name := by
  unfold Scope.find
  cases h with
  | simple given pointless => simp [given, pointless]
  | nested pointed foreign upper =>
    simp [List.ne_nil_of_mem pointed, pointed, qualified?_eq_none.mpr foreign, upper]

/-- What is ambiguous is a simple name, and the text is understood as this name. -/
theorem looksUp_of_find (h : s.find owner text = .several name candidates chosen) :
    LooksUp s text name := by
  unfold Scope.find at h
  dsimp only at h
  split at h
  · cases h
  · rename_i hgiven
    rw [List.isEmpty_iff] at hgiven
    split at h
    · rename_i hpointed
      split at h
      · cases h
      · rename_i hforeign
        split at h
        · rename_i hupper
          obtain rfl := name_of_lookUp h
          exact .nested (List.contains_iff_mem.mp hpointed) (qualified?_eq_none.mp hforeign) hupper
        · cases h
    · rename_i hpointless
      obtain rfl := name_of_lookUp h
      exact .simple hgiven (mt List.contains_iff_mem.mpr hpointless)

/-- A simple name is ambiguous if several classifiers bear it, and these are the candidates. -/
theorem lookUp_eq_several : s.lookUp owner name = .several name candidates chosen ↔
    candidates = s.named name ∧ 2 ≤ (s.named name).length ∧
      (s.lookUp owner name).target? = some chosen := by
  unfold Scope.lookUp
  cases s.named name with
  | nil => simp
  | cons first others =>
    cases others with
    | nil => simp
    | cons second others => simp [Finding.target?, eq_comm]

end Names

/-! ## Clashes -/

/-- A classifier refers to others by a name that several of them bear, and one of these is chosen. -/
structure Clash where
  owner : Classifier
  name : String
  chosen : Classifier

/-- The note on a clash: its candidates are all classifiers of that name as they stand in the diagram. -/
def Clash.note (s : Scope) (c : Clash) : Ambiguity :=
  ⟨c.owner.qualifiedName, c.name, (s.named c.name).map (·.qualifiedName), c.chosen.qualifiedName⟩

/-- What tells one clash from another. -/
def Clash.key (c : Clash) : Nat × String := (c.owner.key, c.name)

/-- The clash that a reference runs into. -/
def Reference.clash? (s : Scope) (r : Reference) : Option Clash :=
  match s.find r.owner r.text with
  | .several name _ chosen => some ⟨r.owner, name, chosen⟩
  | _ => none

/-- The clashes that references run into, each once. -/
def clashes (s : Scope) (refs : List Reference) : List Clash :=
  firstBy Clash.key [] (refs.filterMap (·.clash? s))

section Clashes

variable {s : Scope} {r : Reference} {refs : List Reference} {c : Clash}

/-- A reference runs into a clash if its text is understood as the name and several classifiers bear
it. -/
theorem clash?_eq_some : r.clash? s = some c ↔ c.owner = r.owner ∧ LooksUp s r.text c.name ∧
    2 ≤ (s.named c.name).length ∧ s.resolve r.owner r.text = some c.chosen := by
  obtain ⟨owner, name, chosen⟩ := c
  unfold Reference.clash?
  constructor
  · intro h
    split at h
    · rename_i hfind
      cases h
      obtain ⟨-, hmany, -⟩ := lookUp_eq_several.mp (find_several hfind)
      exact ⟨rfl, looksUp_of_find hfind, hmany, by rw [Scope.resolve, hfind]; rfl⟩
    · cases h
  · intro hgiven
    obtain ⟨rfl, hlooks, hmany, hresolve⟩ := hgiven
    rw [Scope.resolve, hlooks.find_eq] at hresolve
    rw [hlooks.find_eq, lookUp_eq_several.mpr ⟨rfl, hmany, hresolve⟩]

/-- What is noted of a reference is its clash. -/
theorem ambiguity?_eq_map :
    r.ambiguity? s = (r.clash? s).map fun c => ((c.owner.id, c.name), c.note s) := by
  unfold Reference.ambiguity? Reference.clash?
  cases hfind : s.find r.owner r.text with
  | several name candidates chosen =>
    obtain ⟨rfl, -, -⟩ := lookUp_eq_several.mp (find_several hfind)
    rfl
  | _ => rfl

/-- Where ids and keys tell the same owners apart, each clash is noted, and once. -/
theorem ambiguities_eq_map_clashes (howner : ∀ r ∈ refs, ∀ r' ∈ refs,
    r.owner.id = r'.owner.id ↔ r.owner.key = r'.owner.key) :
    ambiguities s refs = (clashes s refs).map (Clash.note s) := by
  have hnoted : refs.filterMap (·.ambiguity? s) =
      (refs.filterMap (·.clash? s)).map fun c => ((c.owner.id, c.name), c.note s) := by
    rw [List.map_filterMap]
    exact congrArg (List.filterMap · refs) (funext fun r => ambiguity?_eq_map)
  rw [ambiguities, hnoted, firstBy_map (fun _ => rfl) [] _, List.map_map]
  refine congrArg (List.map (Clash.note s)) (firstBy_congr (fun _ _ => by simp) ?_)
  intro c hc c' hc'
  obtain ⟨r, hr, hclash⟩ := List.mem_filterMap.mp hc
  obtain ⟨r', hr', hclash'⟩ := List.mem_filterMap.mp hc'
  simp only [Clash.key, Prod.mk.injEq, (clash?_eq_some.mp hclash).1, (clash?_eq_some.mp hclash').1,
    howner r hr r' hr']

end Clashes

/-! ## Declared supertypes -/

/-- The supertypes that a classifier declares, with how it does; an empty superclass declares none. -/
def declared (c : Classifier) : List (String × Relation) :=
  (c.declaredSuperclass.toList.filter (· ≠ "")).map (·, .extends) ++
    c.declaredInterfaces.map (·, if c.kind = .interface then .extends else .implements)

/-- The notes on those of them that mean no classifier. -/
def undefinedSupertypes (s : Scope) (c : Classifier) : List Unresolved :=
  ((declared c).filter fun x => s.resolve c x.1 = none).map fun x => ⟨c.qualifiedName, x.1, x.2⟩

section Supertypes

variable {s : Scope} {c : Classifier} {cs : List Classifier} {r : Reference} {withSupertypes : Bool}

theorem unresolved?_of_supertype {owner : Classifier} {text : String} {relation : Relation}
    {kind : RelationshipKind} : Reference.unresolved? s ⟨owner, text, .supertype relation kind⟩ =
      if s.resolve owner text = none then some ⟨owner.qualifiedName, text, relation⟩ else none := by
  unfold Reference.unresolved?
  cases s.resolve owner text <;> rfl

/-- The references to supertypes are the declared ones, in order. -/
theorem supertypes_eq_map : supertypes c = (declared c).map fun x => ⟨c, x.1, .supertype x.2
    (match x.2 with | .extends => .inheritance | .implements => .implementation)⟩ := by
  have hempty : ∀ text : String, (!text.isEmpty) = decide (text ≠ "") := by
    intro text
    rw [Bool.eq_iff_iff]
    simp
  unfold supertypes declared
  rw [List.map_append, List.map_map, List.map_map]
  simp only [hempty]
  cases c.kind <;> rfl

theorem supertypes_unresolved : (supertypes c).filterMap (·.unresolved? s) = undefinedSupertypes s c := by
  rw [supertypes_eq_map, undefinedSupertypes, List.filterMap_map]
  simp only [Function.comp_def, unresolved?_of_supertype]
  induction declared c with
  | nil => rfl
  | cons x xs ih => cases hx : s.resolve c x.1 <;> simp [hx, ih]

/-- Only supertypes are noted as unresolved. -/
theorem references_unresolved : (references cs withSupertypes).filterMap (·.unresolved? s) =
    if withSupertypes then cs.flatMap (undefinedSupertypes s) else [] := by
  have hfields : (cs.flatMap fieldReferences).filterMap (·.unresolved? s) = [] := by
    rw [List.filterMap_eq_nil_iff]
    intro r hr
    obtain ⟨c, -, hr⟩ := List.mem_flatMap.mp hr
    obtain ⟨f, -, name, -, rfl⟩ := mem_fieldReferences.mp hr
    rfl
  have hsignatures : (cs.flatMap signatureReferences).filterMap (·.unresolved? s) = [] := by
    rw [List.filterMap_eq_nil_iff]
    intro r hr
    obtain ⟨c, -, hr⟩ := List.mem_flatMap.mp hr
    obtain ⟨op, -, type, -, name, -, rfl⟩ := mem_signatureReferences.mp hr
    rfl
  rw [references, List.filterMap_append, List.filterMap_append, hfields, hsignatures, List.append_nil,
    List.append_nil]
  cases withSupertypes with
  | false => rfl
  | true => rw [if_pos rfl, if_pos rfl, List.filterMap_flatMap, funext fun c => supertypes_unresolved]

end Supertypes

/-! ## Reports -/

/-- A report notes what a run came across. -/
structure Exhaustive (s : Scope) (withSupertypes : Bool) (report : Report) (clashes : List Clash) :
    Prop where
  /-- The ambiguities are the notes on clashes. -/
  noted : report.ambiguities = clashes.map (Clash.note s)
  /-- No classifier clashes twice over one name. -/
  once : (clashes.map Clash.key).Nodup
  /-- A classifier clashes over a name if a text examined of it is understood as that name and several
  classifiers bear it. -/
  complete : ∀ owner name, (∃ c ∈ clashes, c.owner = owner ∧ c.name = name) ↔ owner ∈ s.classifiers ∧
    (∃ text kind, Examines withSupertypes owner text kind ∧ LooksUp s text name) ∧
      2 ≤ (s.named name).length
  /-- Whatever is understood as that name means the classifier that was chosen, and its edge leads
  there. -/
  consistent : ∀ c ∈ clashes, c.chosen ∈ s.named c.name ∧ ∀ text kind,
    Examines withSupertypes c.owner text kind → LooksUp s text c.name →
      s.resolve c.owner text = some c.chosen ∧ (c.owner.key ≠ c.chosen.key →
        (c.owner.key, c.chosen.key, kind) ∈ report.relationships.map triple)
  /-- An edge to another candidate comes from a text that is not understood as the name. -/
  elsewhere : ∀ c ∈ clashes, ∀ other ∈ s.named c.name, other.key ≠ c.chosen.key → ∀ kind,
    (c.owner.key, other.key, kind) ∈ report.relationships.map triple →
      ∃ text, Examines withSupertypes c.owner text kind ∧ s.resolve c.owner text = some other ∧
        ¬ LooksUp s text c.name
  /-- The unresolved supertypes are those declared ones that mean nothing, classifier by classifier. -/
  unresolved : report.unresolved =
    if withSupertypes then s.classifiers.flatMap (undefinedSupertypes s) else []

section Whole

variable {w : Identity String} {d : Diagram} {searchOrder : List String} {withSupertypes : Bool}
  {supply : Supply}

/-- A clash comes from a text of its owner, and the name means the chosen classifier. -/
theorem of_mem_clashes {s : Scope} {c : Clash}
    (h : c ∈ clashes s (references s.classifiers withSupertypes)) :
    c.owner ∈ s.classifiers ∧
      (∃ text kind, Examines withSupertypes c.owner text kind ∧ LooksUp s text c.name) ∧
      2 ≤ (s.named c.name).length ∧ (s.lookUp c.owner c.name).target? = some c.chosen := by
  obtain ⟨r, hr, hclash⟩ := List.mem_filterMap.mp (firstBy_sublist.subset h)
  obtain ⟨howner, hlooks, hmany, hresolve⟩ := clash?_eq_some.mp hclash
  obtain ⟨a, ha, hr⟩ := mem_references.mp hr
  obtain rfl := owner_of_mem hr
  rw [Scope.resolve, hlooks.find_eq] at hresolve
  rw [howner]
  exact ⟨ha, ⟨_, _, examines_iff.mpr ⟨r, hr, rfl, rfl⟩, hlooks⟩, hmany, hresolve⟩

/-- A text that is understood as a name of several classifiers leads to a clash. -/
theorem exists_mem_clashes {s : Scope} {owner : Classifier} {text name : String}
    {kind : RelationshipKind} (howner : owner ∈ s.classifiers)
    (hkey : ∀ a ∈ s.classifiers, ∀ b ∈ s.classifiers, a.key = b.key → a = b)
    (hexamined : Examines withSupertypes owner text kind) (hlooks : LooksUp s text name)
    (hmany : 2 ≤ (s.named name).length) :
    ∃ c ∈ clashes s (references s.classifiers withSupertypes), c.owner = owner ∧ c.name = name := by
  obtain ⟨r, hr, rfl, -⟩ := examines_iff.mp hexamined
  obtain rfl := owner_of_mem hr
  obtain ⟨chosen, hchosen⟩ : ∃ chosen, s.resolve r.owner r.text = some chosen := by
    rw [Scope.resolve, hlooks.find_eq]
    unfold Scope.lookUp
    cases hnamed : s.named name with
    | nil => simp [hnamed] at hmany
    | cons first others => cases others <;> exact ⟨_, rfl⟩
  have hclash : r.clash? s = some ⟨r.owner, name, chosen⟩ :=
    clash?_eq_some.mpr ⟨rfl, hlooks, hmany, hchosen⟩
  have hnoted : (r.owner.key, name) ∈ (clashes s (references s.classifiers withSupertypes)).map
      Clash.key := by
    refine mem_map_firstBy.mpr ⟨List.mem_map.mpr ⟨_, List.mem_filterMap.mpr ⟨r, ?_, hclash⟩, rfl⟩,
      List.not_mem_nil⟩
    exact mem_references.mpr ⟨_, howner, hr⟩
  obtain ⟨c, hc, hsame⟩ := List.mem_map.mp hnoted
  obtain ⟨hck, hname⟩ := Prod.mk.inj hsame
  exact ⟨c, hc, hkey _ (of_mem_clashes hc).1 _ howner hck, hname⟩

/-- In every reachable diagram the notes of inference are exhaustive: each classifier that refers to others
by a name that several of them bear is noted once for that name, with all candidates and the one that is
meant throughout, and so is every declared supertype that means nothing. -/
theorem analyze_exhaustive (h : Reachable w d) (searchOrder : List String) (withSupertypes : Bool)
    (supply : Supply) :
    ∃ clashes, Exhaustive ⟨d.classifiers, searchOrder⟩ withSupertypes
      (analyze d searchOrder withSupertypes supply).1 clashes := by
  let s : Scope := ⟨d.classifiers, searchOrder⟩
  have hexact := exact_of_ends h (found_ends h searchOrder withSupertypes supply)
  have hkey : ∀ a ∈ s.classifiers, ∀ b ∈ s.classifiers, a.key = b.key → a = b :=
    fun a ha b hb => h.tracked.eq_of_key ha hb
  have hmeant : ∀ c ∈ clashes s (references s.classifiers withSupertypes), ∀ text,
      LooksUp s text c.name → s.resolve c.owner text = some c.chosen := by
    intro c hc text hlooks
    rw [Scope.resolve, hlooks.find_eq]
    exact (of_mem_clashes hc).2.2.2
  refine ⟨clashes s (references s.classifiers withSupertypes), ?_, firstBy_nodup, ?_, ?_, ?_,
    references_unresolved⟩
  · refine ambiguities_eq_map_clashes fun r hr r' hr' => ⟨fun hid => ?_, fun hk => ?_⟩
    · rw [ownersApart h withSupertypes r hr r' hr' hid]
    · rw [hkey _ (owner_of_mem_references hr) _ (owner_of_mem_references hr') hk]
  · intro owner name
    constructor
    · intro hgiven
      obtain ⟨c, hc, rfl, rfl⟩ := hgiven
      obtain ⟨howner, hlooks, hmany, -⟩ := of_mem_clashes hc
      exact ⟨howner, hlooks, hmany⟩
    · intro hgiven
      obtain ⟨howner, ⟨text, kind, hexamined, hlooks⟩, hmany⟩ := hgiven
      exact exists_mem_clashes howner hkey hexamined hlooks hmany
  · intro c hc
    obtain ⟨howner, -, -, htarget⟩ := of_mem_clashes hc
    refine ⟨Scope.lookUp_mem_named htarget, fun text kind hexamined hlooks => ?_⟩
    have hresolve := hmeant c hc text hlooks
    refine ⟨hresolve, fun hne => ?_⟩
    exact (hexact.complete _ howner _ (Scope.resolve_mem hresolve) hne kind).mpr
      (calls_iff_examines.mpr ⟨text, hexamined, hresolve⟩)
  · intro c hc other hother hne kind hfound
    obtain ⟨r, hr, htriple⟩ := List.mem_map.mp hfound
    obtain ⟨a, ha, b, hb, hsource, htarget, hab⟩ := hexact.proper r hr
    simp only [triple, hsource, htarget, Prod.mk.injEq] at htriple
    obtain ⟨hak, hbk, -⟩ := htriple
    have hapart : c.owner.key ≠ other.key := by
      rw [← hak, ← hbk]
      exact hab
    obtain ⟨text, hexamined, hresolve⟩ := calls_iff_examines.mp ((hexact.complete _
      (of_mem_clashes hc).1 _ (List.mem_of_mem_filter hother) hapart kind).mp hfound)
    refine ⟨text, hexamined, hresolve, fun hlooks => hne ?_⟩
    rw [Option.some.inj (hresolve.symm.trans (hmeant c hc text hlooks))]

/-- A cart of items takes items out of crates. There are two classes of items; the search order decides
between them for the field as for the parameter, and one note stands for both. -/
theorem analyze_exhaustive_crate :
    let spare := { bareClass 0 "i" with name := "Item", namespaceName := "spare" }
    let stock := { bareClass 1 "s" with name := "Item", namespaceName := "stock" }
    let cart := { bareClass 2 "c" with
      name := "Cart", namespaceName := "shop", declaredInterfaces := ["Movable", "Movable"]
      fields := [⟨"items", "List<Item>", none, .private, false, true⟩]
      operations := [{ name := "take", returnType := none, parameters := [⟨"item", "Crate.Item", none⟩] }] }
    let w : Identity String := ⟨fun key => if key = 0 then "i" else if key = 1 then "s" else "c",
      fun _ => 0, fun _ => 0⟩
    let d : Diagram := { (DiagramOf.empty "shop" "" none none none {}).1 with
      elements := [.classifier spare, .classifier stock, .classifier cart]
      index := [("i", 0), ("s", 1), ("c", 2)] }
    let report := (analyze d ["stock"] true {}).1
    Reachable w d ∧ (∃ clashes, Exhaustive ⟨d.classifiers, ["stock"]⟩ true report clashes) ∧
      report.ambiguities = [⟨"shop.Cart", "Item", ["spare.Item", "stock.Item"], "stock.Item"⟩] ∧
      report.relationships.map triple = [(2, 1, .composition), (2, 1, .dependency)] ∧
      report.unresolved =
        [⟨"shop.Cart", "Movable", .implements⟩, ⟨"shop.Cart", "Movable", .implements⟩] := by
  intro spare stock cart w d report
  have hreach : Reachable w d := by
    have hnew : Reachable w (DiagramOf.empty "shop" "" none none none {}).1 := .new ..
    have hspare := hnew.withClassifier (c := spare) rfl rfl
    have hstock := hspare.withClassifier (c := stock) rfl rfl
    exact hstock.withClassifier (c := cart) rfl rfl
  exact ⟨hreach, analyze_exhaustive hreach ["stock"] true {}, by decide +kernel, by decide +kernel,
    by decide +kernel⟩

end Whole

end ClassAtlas.Inference
