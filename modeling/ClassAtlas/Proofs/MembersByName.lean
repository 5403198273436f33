import ClassAtlas.Proofs.InferredEdges
import ClassAtlas.Proofs.NamesInTypes

/-! # Members whose type is the name of a classifier

A member may have for its type the very name of another classifier, one that no third classifier bears.
Inference does not take the text of the type as it stands but scans it for names, and a name
goes on with letters and numbers of any script, but starts with an ASCII letter, an underscore or a
dollar sign. So the member leads to the classifier exactly when the scan takes the whole name for one:
of an identifier that starts with another letter, only a part is looked up. -/

namespace ClassAtlas.Java.TypeNames

variable {cs rest : List Char} {c : Char} {name text : String}

/-! ## What the scan takes for a name -/

/-- The scan takes such a text for one name. -/
def IsScanned (name : String) : Prop :=
  ∃ c rest, name.toList = c :: rest ∧ isStart c = true ∧ ∀ x ∈ rest, isPart x = true

theorem restOfName_eq (h : ∀ x ∈ cs, isPart x = true) : restOfName cs = (cs, []) := by
  induction cs with
  | nil => rfl
  | cons c cs ih =>
    obtain ⟨hc, hcs⟩ := List.forall_mem_cons.mp h
    rw [restOfName, hc, Bool.true_or, if_pos rfl, ih hcs]

theorem scan_eq (hstart : isStart c = true) (hrest : ∀ x ∈ rest, isPart x = true) :
    scan (c :: rest) = [c :: rest] := by
  rw [scan, if_pos hstart, restOfName_eq hrest, scan]

/-- Behind its first character a name goes on in word characters, dollar signs and points. -/
theorem isPart_of_mem_restOfName (h : c ∈ (restOfName cs).1) : isPart c = true ∨ c = '.' := by
  induction cs with
  | nil => cases h
  | cons first cs ih =>
    rw [restOfName] at h
    split at h
    · rename_i hname
      rcases List.mem_cons.mp h with rfl | h
      · rcases Bool.or_eq_true_iff.mp hname with hpart | hpoint
        · exact .inl hpart
        · exact .inr (beq_iff_eq.mp (Bool.and_eq_true_iff.mp hpoint).1)
      · exact ih h
    · cases h

theorem restOfName_subset : (restOfName cs).1 ⊆ cs ∧ (restOfName cs).2 ⊆ cs := by
  have happend := restOfName_append cs
  constructor
  · intro x hx
    rw [← happend]
    exact List.mem_append_left _ hx
  · intro x hx
    rw [← happend]
    exact List.mem_append_right _ hx

theorem of_mem_scan {found : List Char} (h : found ∈ scan cs) : found ⊆ cs ∧ ∃ c rest,
    found = c :: rest ∧ isStart c = true ∧ ∀ x ∈ rest, isPart x = true ∨ x = '.' := by
  fun_induction scan cs with
  | case1 => cases h
  | case2 c rest hstart ih =>
    rcases List.mem_cons.mp h with rfl | h
    · exact ⟨List.cons_subset_cons c restOfName_subset.1, c, _, rfl, hstart,
        fun x => isPart_of_mem_restOfName⟩
    · obtain ⟨hsubset, hfound⟩ := ih h
      exact ⟨fun x hx => List.mem_cons_of_mem c (restOfName_subset.2 (hsubset hx)), hfound⟩
  | case3 c rest hstart ih =>
    obtain ⟨hsubset, hfound⟩ := ih h
    exact ⟨fun x hx => List.mem_cons_of_mem c (hsubset hx), hfound⟩

theorem mem_ofText :
    name ∈ ofText text ↔ name.toList ∈ scan text.toList ∧ isReserved name = false := by
  rw [ofText, mem_distinct, List.mem_filter, List.mem_map, Bool.not_eq_true']
  refine and_congr_left fun _ => ?_
  constructor
  · rintro ⟨found, hfound, rfl⟩
    rwa [String.toList_ofList]
  · exact fun h => ⟨_, h, String.ofList_toList⟩

/-- Names found in a text without points have none. -/
theorem point_notMem_of_mem_ofText (h : name ∈ ofText text) (hpoint : '.' ∉ text.toList) :
    '.' ∉ name.toList :=
  fun hmem => hpoint ((of_mem_scan (mem_ofText.mp h).1).1 hmem)

theorem mem_ofText_self (hpoint : '.' ∉ name.toList) (hfree : isReserved name = false) :
    name ∈ ofText name ↔ IsScanned name := by
  rw [mem_ofText, and_iff_left hfree]
  constructor
  · intro h
    obtain ⟨-, c, rest, hname, hstart, hrest⟩ := of_mem_scan h
    refine ⟨c, rest, hname, hstart, fun x hx => (hrest x hx).resolve_right ?_⟩
    rintro rfl
    exact hpoint (hname ▸ List.mem_cons_of_mem c hx)
  · rintro ⟨c, rest, hname, hstart, hrest⟩
    rw [hname, scan_eq hstart hrest]
    exact List.mem_singleton_self _

end ClassAtlas.Java.TypeNames

namespace ClassAtlas.Inference

open Java (TypeNames.ofText TypeNames.IsScanned TypeNames.isReserved)

variable {s : Scope} {withSupertypes : Bool} {a b owner : Classifier} {text : String}
  {kind : RelationshipKind}

/-! ## Looking up the name of a classifier -/

theorem Scope.exists_target_of_mem {name : String} (owner : Classifier) (h : b ∈ s.named name) :
    ∃ c, (s.lookUp owner name).target? = some c := by
  unfold Scope.lookUp
  cases hnamed : s.named name with
  | nil => simp [hnamed] at h
  | cons first others =>
    cases others with
    | nil => exact ⟨first, rfl⟩
    | cons second others => exact ⟨_, rfl⟩

/-- A member with such a type means the classifier of that name exactly if the scan finds the name. -/
theorem exists_named_iff (hb : b ∈ s.classifiers) (hpoint : '.' ∉ b.name.toList)
    (hfree : TypeNames.isReserved b.name = false)
    (honly : ∀ c ∈ s.classifiers, c.name = b.name → c = b) :
    (∃ name ∈ TypeNames.ofText b.name, s.resolve owner name = some b) ↔
      TypeNames.IsScanned b.name := by
  have hlookUp : ∀ name ∈ TypeNames.ofText b.name,
      s.resolve owner name = (s.lookUp owner name).target? := by
    intro name hname
    obtain ⟨hbare, hnonempty⟩ := Java.TypeNames.bare_of_mem_ofText hname
    exact Scope.resolve_simple hbare hnonempty (Java.TypeNames.point_notMem_of_mem_ofText hname hpoint)
  rw [← Java.TypeNames.mem_ofText_self hpoint hfree]
  constructor
  · rintro ⟨name, hname, hmeans⟩
    rw [hlookUp name hname] at hmeans
    obtain rfl : b.name = name := (Scope.lookUp_mem hmeans).2
    exact hname
  · intro hname
    have hnamed : b ∈ s.named b.name := List.mem_filter.mpr ⟨hb, beq_self_eq_true _⟩
    obtain ⟨c, hc⟩ := Scope.exists_target_of_mem owner hnamed
    obtain ⟨hmem, hcname⟩ := Scope.lookUp_mem hc
    obtain rfl := honly c hmem hcname
    exact ⟨_, hname, (hlookUp _ hname).trans hc⟩

/-! ## Members with a type -/

/-- A classifier has a member whose type is this text, and which calls for edges of this kind. -/
inductive Uses (owner : Classifier) (text : String) : RelationshipKind → Prop where
  | field {f : Field} (member : f ∈ owner.fields) (typed : f.typeName = text) :
      Uses owner text (fieldKind f.isFinal)
  | returned {op : Operation} (member : op ∈ owner.operations) (typed : op.returnType = some text) :
      Uses owner text .dependency
  | parameter {op : Operation} {p : Parameter} (member : op ∈ owner.operations)
      (taken : p ∈ op.parameters) (typed : p.typeName = text) : Uses owner text .dependency

def operationWithout (text : String) (op : Operation) : Operation :=
  { op with
    returnType := op.returnType.filter (· != text)
    parameters := op.parameters.filter (·.typeName != text) }

/-- A classifier but for the fields, return types and parameters of a type. -/
def withoutType (text : String) (c : Classifier) : Classifier :=
  { c with
    fields := c.fields.filter (·.typeName != text)
    operations := c.operations.map (operationWithout text) }

/-- What a classifier calls for, it calls for by members of a type or by something else. -/
theorem calls_iff_without (text : String) : Calls s withSupertypes a b kind ↔
    Uses a text kind ∧ (∃ name ∈ TypeNames.ofText text, s.resolve a name = some b) ∨
      Calls s withSupertypes (withoutType text a) b kind := by
  constructor
  · intro h
    cases h with
    | superclass wanted declared means => exact .inr (.superclass wanted declared means)
    | @listed name wanted declared means =>
      have declared : name ∈ (withoutType text a).declaredInterfaces := declared
      exact .inr (.listed wanted declared means)
    -- a member of the type is a use of it, and every other member is kept
    | @field f name member named means =>
      by_cases htext : f.typeName = text
      · exact .inl ⟨.field member htext, name, htext ▸ named, means⟩
      · have member : f ∈ (withoutType text a).fields :=
          List.mem_filter.mpr ⟨member, bne_iff_ne.mpr htext⟩
        exact .inr (.field member named means)
    | @returned op type name member typed named means =>
      by_cases htext : type = text
      · exact .inl ⟨.returned member (htext ▸ typed), name, htext ▸ named, means⟩
      · have member : operationWithout text op ∈ (withoutType text a).operations :=
          List.mem_map_of_mem member
        have typed : (operationWithout text op).returnType = some type := by
          simp [operationWithout, typed, htext]
        exact .inr (.returned member typed named means)
    | @parameter op p name member taken named means =>
      by_cases htext : p.typeName = text
      · exact .inl ⟨.parameter member taken htext, name, htext ▸ named, means⟩
      · have member : operationWithout text op ∈ (withoutType text a).operations :=
          List.mem_map_of_mem member
        have taken : p ∈ (operationWithout text op).parameters :=
          List.mem_filter.mpr ⟨taken, bne_iff_ne.mpr htext⟩
        exact .inr (.parameter member taken named means)
  · rintro (⟨huses, name, named, means⟩ | h)
    · cases huses with
      | field member typed => exact .field member (typed ▸ named) means
      | returned member typed => exact .returned member typed named means
      | parameter member taken typed => exact .parameter member taken (typed ▸ named) means
    · cases h with
      | superclass wanted declared means => exact .superclass wanted declared means
      | @listed name wanted declared means =>
        have declared : name ∈ a.declaredInterfaces := declared
        exact .listed wanted declared means
      | field member named means => exact .field (List.mem_of_mem_filter member) named means
      | returned member typed named means =>
        obtain ⟨op, hop, rfl⟩ := List.mem_map.mp member
        exact .returned hop (Option.filter_eq_some_iff.mp typed).1 named means
      | parameter member taken named means =>
        obtain ⟨op, hop, rfl⟩ := List.mem_map.mp member
        exact .parameter hop (List.mem_of_mem_filter taken) named means

/-! ## The edge -/

section Found

variable {w : Identity String} {d : Diagram} {found : List Relationship}

theorem Exact.exists_iff (hexact : Exact s withSupertypes found)
    (hkey : ∀ x ∈ s.classifiers, ∀ y ∈ s.classifiers, x.key = y.key → x = y)
    (ha : a ∈ s.classifiers) (hb : b ∈ s.classifiers) (hne : a.key ≠ b.key) :
    (∃ r ∈ found, r.source = a.toEndpoint ∧ r.target = b.toEndpoint ∧ r.kind = kind) ↔
      Calls s withSupertypes a b kind := by
  rw [← hexact.complete a ha b hb hne, List.mem_map]
  constructor
  · rintro ⟨r, hr, hs, ht, rfl⟩
    exact ⟨r, hr, by rw [triple, hs, ht]; rfl⟩
  · rintro ⟨r, hr, htriple⟩
    obtain ⟨a', ha', b', hb', hs, ht, -⟩ := hexact.proper r hr
    simp only [triple, hs, ht, Prod.mk.injEq] at htriple
    obtain ⟨hka, hkb, hkind⟩ := htriple
    rw [hkey a' ha' a ha hka] at hs
    rw [hkey b' hb' b hb hkb] at ht
    exact ⟨r, hr, hs, ht, hkind⟩

/-- A member has for its type the name of another classifier: no word that is reserved, without points,
and borne by no third classifier. Then inference finds the edge that the member calls for exactly if
the scan takes the name for a name, or something else calls for the same edge. -/
theorem named_edge_iff (h : Reachable w d) (ha : a ∈ d.classifiers) (hb : b ∈ d.classifiers)
    (hne : a.key ≠ b.key) (hpoint : '.' ∉ b.name.toList) (hfree : TypeNames.isReserved b.name = false)
    (honly : ∀ c ∈ d.classifiers, c.name = b.name → c.key = b.key) (huses : Uses a b.name kind)
    (searchOrder : List String) (withSupertypes : Bool) (supply : Supply) :
    (∃ r ∈ (analyze d searchOrder withSupertypes supply).1.relationships,
        r.source = a.toEndpoint ∧ r.target = b.toEndpoint ∧ r.kind = kind) ↔
      TypeNames.IsScanned b.name ∨
        Calls ⟨d.classifiers, searchOrder⟩ withSupertypes (withoutType b.name a) b kind := by
  have hexact := exact_of_ends h (found_ends h searchOrder withSupertypes supply)
  have hkey : ∀ x ∈ d.classifiers, ∀ y ∈ d.classifiers, x.key = y.key → x = y :=
    fun x hx y hy => h.tracked.eq_of_key hx hy
  rw [hexact.exists_iff hkey ha hb hne, calls_iff_without b.name, and_iff_right huses,
    exists_named_iff hb hpoint hfree fun c hc hname => hkey c hc b hb (honly c hc hname)]

/-- A shape has a size and an opening, both under names with an umlaut. Only a name that starts with one
is not found. -/
theorem named_edge_iff_umlaut :
    let size := { bareClass 0 "s" with name := "Größe" }
    let opening := { bareClass 1 "o" with name := "Öffnung" }
    let measure : Field := ⟨"size", "Größe", none, .private, false, true⟩
    let shape := { bareClass 2 "f" with
      name := "Form", fields := [measure]
      operations := [{ name := "open", returnType := some "Öffnung" }] }
    let w : Identity String := ⟨fun key => if key = 0 then "s" else if key = 1 then "o" else "f",
      fun _ => 0, fun _ => 0⟩
    let d : Diagram := { (DiagramOf.empty "shapes" "" none none none {}).1 with
      elements := [.classifier size, .classifier opening, .classifier shape]
      index := [("s", 0), ("o", 1), ("f", 2)] }
    let found := (analyze d [] true {}).1.relationships
    Reachable w d ∧
      (∃ r ∈ found, r.source = shape.toEndpoint ∧ r.target = size.toEndpoint ∧
        r.kind = .composition) ∧
      ¬ ∃ r ∈ found, r.source = shape.toEndpoint ∧ r.target = opening.toEndpoint ∧
        r.kind = .dependency := by
  intro size opening measure shape w d found
  have hreach : Reachable w d := by
    have hnew : Reachable w (DiagramOf.empty "shapes" "" none none none {}).1 := .new ..
    have hsize := hnew.withClassifier (c := size) rfl rfl
    have hopening := hsize.withClassifier (c := opening) rfl rfl
    exact hopening.withClassifier (c := shape) rfl rfl
  have hclassifiers : d.classifiers = [size, opening, shape] := rfl
  have hshape : shape ∈ d.classifiers := by simp [hclassifiers]
  have hscanned : TypeNames.IsScanned size.name :=
    ⟨'G', ['r', 'ö', 'ß', 'e'], by decide, by decide, List.all_eq_true.mp (by decide +kernel)⟩
  have hunscanned : ¬ TypeNames.IsScanned opening.name := by
    rintro ⟨c, rest, hname, hstart, -⟩
    have hhead : opening.name.toList.head? = some 'Ö' := by decide
    rw [hname] at hhead
    cases hhead
    exact absurd hstart (by decide)
  have hmeasures : Uses shape size.name .composition := .field (f := measure) List.mem_cons_self rfl
  have hopens : Uses shape opening.name .dependency := .returned List.mem_cons_self rfl
  have hfirst := named_edge_iff hreach hshape (b := size) (by simp [hclassifiers]) (by decide)
    (by decide) (by decide) (by simp [hclassifiers, size, opening, shape, bareClass]) hmeasures [] true {}
  have hsecond := named_edge_iff hreach hshape (b := opening) (by simp [hclassifiers]) (by decide)
    (by decide) (by decide) (by simp [hclassifiers, size, opening, shape, bareClass]) hopens [] true {}
  refine ⟨hreach, hfirst.mpr (.inl hscanned), fun hfound => ?_⟩
  rcases hsecond.mp hfound with hscan | hcalls
  · exact hunscanned hscan
  · obtain ⟨r, hr, -, hkind⟩ := calls_iff.mp hcalls
    have huses : (ownReferences true (withoutType opening.name shape)).map (·.use) = [.field true] := by
      decide +kernel
    have huse : r.use ∈ [Use.field true] := huses ▸ List.mem_map_of_mem hr
    rw [List.mem_singleton.mp huse] at hkind
    cases hkind

end Found

end ClassAtlas.Inference
