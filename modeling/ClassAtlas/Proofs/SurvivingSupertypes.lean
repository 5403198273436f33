import Mathlib.Data.List.Perm.Basic
import ClassAtlas.Proofs.BuiltDiagrams
import ClassAtlas.Proofs.DocumentRoundTrip
import ClassAtlas.Proofs.InferredEdges
import ClassAtlas.Proofs.PathNames
import ClassAtlas.Proofs.UnitRoundTrip

/-! # Supertypes survive in source text

The header of a unit names the supertypes that the edges of its classifier lead to. When all units of a
diagram are read again, whatever their order, each name means the one classifier that bears it, and the
kind of declaration tells the kind of the edge. So inference finds the edges that the diagram had. -/

namespace ClassAtlas.Java

open Inference (Calls Scope listedKind triple)
open Assembly (Shows diagramOf)
open Document (exists_of_forall₂)
open ClassAtlas.Path (EndsDirectory baseChars_append toList_join)

/-! ## The files of a diagram -/

section Files

variable {style : UnitStyle} {d : Diagram}
  {name name' namespaceName namespaceName' root root' suffix : String}

/-- The path of a unit tells the name of its classifier. -/
theorem outputPath_injective (h : IsName name) (h' : IsName name')
    (hpath : outputPath namespaceName name root suffix = outputPath namespaceName' name' root' suffix) :
    name = name' := by
  have hslash {name : String} (h : IsName name) : '/' ∉ name.toList := fun hmem =>
    noSlash_word h.1 _ hmem rfl
  have hsplit (namespaceName root : String) {name : String} (h : IsName name) :
      ∃ before, EndsDirectory before ∧
        (outputPath namespaceName name root suffix).toList = before ++ name.toList ++ suffix.toList := by
    obtain ⟨c, rest, hc⟩ := List.exists_cons_of_ne_nil (isWord_ne_nil h.1)
    have hhead : (name ++ suffix).toList.head? ≠ some '/' := by
      rw [String.toList_append, hc]
      rintro ⟨⟩
      exact hslash h (hc ▸ List.mem_cons_self)
    rw [outputPath, Path.joinAll, List.foldl_append]
    obtain ⟨before, hbefore, hjoin⟩ := toList_join hhead
    exact ⟨before, hbefore, by rw [List.append_assoc, ← String.toList_append]; exact hjoin⟩
  obtain ⟨before, hbefore, htext⟩ := hsplit namespaceName root h
  obtain ⟨before', hbefore', htext'⟩ := hsplit namespaceName' root' h'
  rw [hpath, htext'] at htext
  have hbase := congrArg Path.baseChars (List.append_cancel_right htext)
  rw [baseChars_append hbefore (hslash h), baseChars_append hbefore' (hslash h')] at hbase
  exact String.toList_inj.mp hbase.symm

theorem putFile_new {path text : String} {files : List (String × String)}
    (h : path ∉ files.map (·.1)) : putFile path text files = files ++ [(path, text)] := by
  induction files with
  | nil => rfl
  | cons file files ih =>
    obtain ⟨hne, hrest⟩ := not_or.mp (mt List.mem_cons.mpr h)
    have hother : (file.1 == path) = false := beq_eq_false_iff_ne.mpr (Ne.symm hne)
    rw [putFile, hother, if_neg Bool.false_ne_true, ih hrest]
    rfl

theorem foldl_putFile {α : Type} {path text : α → String} {xs : List α} {files : List (String × String)}
    (h : (files.map (·.1) ++ xs.map path).Nodup) :
    xs.foldl (fun files x => putFile (path x) (text x) files) files =
      files ++ xs.map fun x => (path x, text x) := by
  induction xs generalizing files with
  | nil => simp
  | cons x xs ih =>
    have hnew : path x ∉ files.map (·.1) := fun hmem =>
      (List.disjoint_of_nodup_append h) hmem List.mem_cons_self
    rw [List.foldl_cons, putFile_new hnew, ih (by simpa using h)]
    simp

/-- Classifiers of different names have units under different paths. -/
theorem units_eq_placed (hnames : ∀ c ∈ d.classifiers, IsName c.name)
    (hdistinct : (d.classifiers.map (·.name)).Nodup) : units style d = placedUnits style "" d := by
  refine (foldl_putFile ?_).trans (List.nil_append _)
  rw [List.map_nil, List.nil_append]
  refine List.Nodup.map_on (fun c hc c' hc' hpath => ?_) hdistinct.of_map
  exact List.inj_on_of_nodup_map hdistinct hc hc'
    (outputPath_injective (hnames c hc) (hnames c' hc') hpath)

end Files

/-! ## Supertypes that are declared -/

/-- A header declares a supertype of this name, for an edge of this kind. -/
def Declares (c : Classifier) (relationships : List Relationship) (name : String)
    (kind : RelationshipKind) : Prop :=
  kind = .inheritance ∧ namedSuperclass c relationships = some name ∨
    kind = listedKind c.kind ∧ name ∈ namedInterfaces c relationships

/-- Without members a classifier is regular if its names are names. -/
theorem regular_of_bare {c : Classifier} (hname : IsName c.name) (segments : List String)
    (hsegments : ∀ s ∈ segments, IsName s) (hnamespace : c.namespaceName = ".".intercalate segments)
    (hfields : c.fields = []) (hoperations : c.operations = []) (hliterals : c.literals = []) :
    Regular c where
  name := hname
  namespaceName := ⟨segments, hsegments, hnamespace⟩
  fields := by simp [hfields]
  operations := by simp [hoperations]
  literals := by simp [hliterals]

/-- A diagram of regular classifiers of different names with edges to supertypes only: at most one
superclass for each class, no implementation by interfaces and no inheritance by enumerations. -/
structure Hierarchy (d : Diagram) : Prop where
  regular : ∀ c ∈ d.classifiers, Regular c
  distinct : (d.classifiers.map (·.name)).Nodup
  kinds : ∀ r ∈ d.relationships, r.kind = .inheritance ∨ r.kind = .implementation
  proper : ∀ r ∈ d.relationships, r.source.key ≠ r.target.key
  single : ∀ r ∈ d.relationships, ∀ r' ∈ d.relationships, r.source.kind = .«class» →
    r.kind = .inheritance → r'.kind = .inheritance → r'.source.key = r.source.key →
    r'.target.key = r.target.key
  interfaces : ∀ r ∈ d.relationships, r.source.kind = .interface → r.kind = .inheritance
  enumerations : ∀ r ∈ d.relationships, r.source.kind = .enumeration → r.kind = .implementation

/-- The qualified names of both ends of a relationship, and its kind. -/
def qualifiedEnds (r : Relationship) : String × String × RelationshipKind :=
  (r.source.qualifiedName, r.target.qualifiedName, r.kind)

section Declared

variable {w : Identity String} {d : Diagram} {c : Classifier} {name : String} {kind : RelationshipKind}
  {kinds : List RelationshipKind} {relationships : List Relationship}

theorem mem_supertypeNames : name ∈ supertypeNames c relationships kinds ↔
    ∃ r ∈ relationships, r.source.key = c.key ∧ r.kind ∈ kinds ∧ r.target.name = name := by
  simp [supertypeNames, and_assoc]

/-- Where all edges of a classifier are of one kind, listing this kind lists them all. -/
theorem mem_supertypeNames_of_only {k : RelationshipKind} (hk : k ∈ kinds)
    (honly : ∀ r ∈ relationships, r.source.key = c.key → r.kind = k) :
    kind = k ∧ name ∈ supertypeNames c relationships kinds ↔
      ∃ r ∈ relationships, r.source.key = c.key ∧ r.target.name = name ∧ r.kind = kind := by
  rw [mem_supertypeNames]
  constructor
  · intro hgiven
    obtain ⟨rfl, r, hr, hkey, -, hname⟩ := hgiven
    exact ⟨r, hr, hkey, hname, honly r hr hkey⟩
  · intro hgiven
    obtain ⟨r, hr, hkey, hname, rfl⟩ := hgiven
    have heq := honly r hr hkey
    exact ⟨heq, r, hr, hkey, heq ▸ hk, hname⟩

theorem head?_eq_some_iff {α : Type} {xs : List α} {x : α} (h : ∀ y ∈ xs, ∀ z ∈ xs, y = z) :
    xs.head? = some x ↔ x ∈ xs := by
  refine ⟨List.mem_of_head?, fun hx => ?_⟩
  cases xs with
  | nil => cases hx
  | cons y xs => rw [List.head?_cons, h y List.mem_cons_self x hx]

theorem Declares.isName (htargets : RegularTargets c relationships)
    (h : Declares c relationships name kind) : IsName name := by
  rcases h with ⟨-, hsuperclass⟩ | ⟨-, hlisted⟩
  · unfold namedSuperclass at hsuperclass
    split at hsuperclass
    · exact isName_supertypeNames htargets name (List.mem_of_head? hsuperclass)
    · cases hsuperclass
  · exact isName_supertypeNames htargets name hlisted

namespace Hierarchy

theorem targets (hd : Hierarchy d) (h : Reachable w d) (c : Classifier) :
    RegularTargets c d.relationships := by
  intro r hr _
  obtain ⟨b, hb, htarget⟩ := h.target_mem hr
  rw [← htarget]
  exact ⟨(hd.regular b hb).name, (hd.regular b hb).namespaceName⟩

theorem eq_of_name (hd : Hierarchy d) {a b : Classifier} (ha : a ∈ d.classifiers)
    (hb : b ∈ d.classifiers) (hname : a.name = b.name) : a = b :=
  List.inj_on_of_nodup_map hd.distinct ha hb hname

theorem source_kind (h : Reachable w d) (hc : c ∈ d.classifiers) {r : Relationship}
    (hr : r ∈ d.relationships) (hkey : r.source.key = c.key) : r.source.kind = c.kind := by
  obtain ⟨a, ha, hsource⟩ := h.source_mem hr
  rw [← hsource] at hkey ⊢
  rw [h.tracked.eq_of_key ha hc hkey]
  rfl

/-- All inheritance of a class leads to one classifier, so that the first name is the only one. -/
theorem single_name (hd : Hierarchy d) (h : Reachable w d) (hc : c ∈ d.classifiers)
    (hclass : c.kind = .«class») : ∀ y ∈ supertypeNames c d.relationships [.inheritance],
      ∀ z ∈ supertypeNames c d.relationships [.inheritance], y = z := by
  intro y hy z hz
  obtain ⟨r, hr, hkey, hinherits, rfl⟩ := mem_supertypeNames.mp hy
  obtain ⟨r', hr', hkey', hinherits', rfl⟩ := mem_supertypeNames.mp hz
  obtain ⟨b, hb, htarget⟩ := h.target_mem hr
  obtain ⟨b', hb', htarget'⟩ := h.target_mem hr'
  have hsame := hd.single r hr r' hr' ((source_kind h hc hr hkey).trans hclass)
    (by simpa using hinherits) (by simpa using hinherits') (hkey'.trans hkey.symm)
  rw [← htarget, ← htarget'] at hsame ⊢
  rw [h.tracked.eq_of_key hb' hb hsame]

/-- The header of a classifier declares exactly the targets of its edges. -/
theorem declares_iff (hd : Hierarchy d) (h : Reachable w d) (hc : c ∈ d.classifiers) :
    Declares c d.relationships name kind ↔
      ∃ r ∈ d.relationships, r.source.key = c.key ∧ r.target.name = name ∧ r.kind = kind := by
  unfold Declares namedSuperclass namedInterfaces
  cases hkind : c.kind with
  | interface =>
    simp only [reduceCtorEq, if_false, if_true, and_false, false_or]
    exact mem_supertypeNames_of_only (by simp [listedKind]) fun r hr hkey =>
      hd.interfaces r hr ((source_kind h hc hr hkey).trans hkind)
  | enumeration =>
    simp only [reduceCtorEq, if_false, and_false, false_or]
    exact mem_supertypeNames_of_only (by simp [listedKind]) fun r hr hkey =>
      hd.enumerations r hr ((source_kind h hc hr hkey).trans hkind)
  | «class» =>
    simp only [reduceCtorEq, if_false, if_true, head?_eq_some_iff (hd.single_name h hc hkind),
      mem_supertypeNames, listedKind, List.mem_singleton]
    constructor
    · intro hgiven
      obtain ⟨rfl, r, hr, hkey, hkinds, hname⟩ | ⟨rfl, r, hr, hkey, hkinds, hname⟩ := hgiven
      · exact ⟨r, hr, hkey, hname, hkinds⟩
      · exact ⟨r, hr, hkey, hname, hkinds⟩
    · intro hgiven
      obtain ⟨r, hr, hkey, hname, rfl⟩ := hgiven
      rcases hd.kinds r hr with hinherits | himplements
      · exact .inl ⟨hinherits, r, hr, hkey, hinherits, hname⟩
      · exact .inr ⟨himplements, r, hr, hkey, himplements, hname⟩

/-- The edges of a hierarchy lead from classifiers to the supertypes that their headers declare. -/
theorem mem_qualifiedEnds_iff (hd : Hierarchy d) (h : Reachable w d)
    {t : String × String × RelationshipKind} : t ∈ d.relationships.map qualifiedEnds ↔
      ∃ a ∈ d.classifiers, ∃ b ∈ d.classifiers, a.name ≠ b.name ∧
        Declares a d.relationships b.name t.2.2 ∧ t = (a.qualifiedName, b.qualifiedName, t.2.2) := by
  rw [List.mem_map]
  constructor
  · intro hgiven
    obtain ⟨r, hr, rfl⟩ := hgiven
    obtain ⟨a, ha, hsource⟩ := h.source_mem hr
    obtain ⟨b, hb, htarget⟩ := h.target_mem hr
    have hne : a.name ≠ b.name := fun hname => hd.proper r hr (by
      rw [← hsource, ← htarget, hd.eq_of_name ha hb hname])
    refine ⟨a, ha, b, hb, hne, (hd.declares_iff h ha).mpr ⟨r, hr, ?_, ?_, rfl⟩, ?_⟩
    · rw [← hsource]
      rfl
    · rw [← htarget]
      rfl
    · rw [qualifiedEnds, ← hsource, ← htarget]
      rfl
  · intro hgiven
    obtain ⟨a, ha, b, hb, -, hdeclares, ht⟩ := hgiven
    obtain ⟨r, hr, hkey, hname, hkind⟩ := (hd.declares_iff h ha).mp hdeclares
    obtain ⟨a', ha', hsource⟩ := h.source_mem hr
    obtain ⟨b', hb', htarget⟩ := h.target_mem hr
    rw [← hsource] at hkey
    rw [← htarget] at hname
    obtain rfl := h.tracked.eq_of_key ha' ha hkey
    obtain rfl := hd.eq_of_name hb' hb hname
    refine ⟨r, hr, ?_⟩
    rw [ht, qualifiedEnds, ← hsource, ← htarget, hkind]
    rfl

end Hierarchy

end Declared

/-! ## Reading the units again -/

/-- A classifier that shows what the unit of another one says. -/
structure Retells (relationships : List Relationship) (c c' : Classifier) : Prop where
  name : c'.name = c.name
  namespaceName : c'.namespaceName = c.namespaceName
  kind : c'.kind = c.kind
  declaredSuperclass : c'.declaredSuperclass = namedSuperclass c relationships
  declaredInterfaces : c'.declaredInterfaces = namedInterfaces c relationships
  types : memberTypes c' = memberTypes c

section Retold

variable {d d' : Diagram} {w w' : Identity String} {style : UnitStyle} {files : List (String × String)}
  {cs cs' : List Classifier} {relationships : List Relationship} {c c' b' : Classifier}
  {kind : RelationshipKind} {read : String → List TypeRecord}

theorem Retells.qualifiedName (h : Retells relationships c c') : c'.qualifiedName = c.qualifiedName := by
  rw [ClassifierOf.qualifiedName, h.name, h.namespaceName, ClassifierOf.qualifiedName]

theorem retells_of_shows {line : Nat} (h : Shows (recordOf c relationships c.namespaceName line) c') :
    Retells relationships c c' := by
  rw [h]
  refine ⟨rfl, rfl, rfl, rfl, rfl, ?_⟩
  simp [memberTypes, Assembly.classifierOf, recordOf, recordIn, fieldIn, operationIn, List.flatMap_map]

/-- Whatever the order of the units, each classifier is read again from its own. -/
theorem exists_retold (hreads : ReadsUnits read) (hregular : ∀ c ∈ d.classifiers, Regular c)
    (htargets : ∀ c, RegularTargets c d.relationships)
    (hdistinct : (d.classifiers.map (·.name)).Nodup) (hindent : IsIndent style.indent)
    (hfiles : files.Perm (units style d)) (name : String) (supply : Supply) :
    ∃ cs, cs.Perm d.classifiers ∧ List.Forall₂ (Retells d.relationships) cs
      (diagramOf name (files.flatMap fun f => read f.2) supply).classifiers := by
  let IsUnit (file : String × String) (c : Classifier) : Prop :=
    ∃ line, read file.2 = [recordOf c d.relationships c.namespaceName line]
  have hunits : List.Forall₂ IsUnit (units style d) d.classifiers := by
    rw [units_eq_placed (fun c hc => (hregular c hc).name) hdistinct, placedUnits,
      List.forall₂_map_left_iff, List.forall₂_same]
    exact fun c hc => hreads.unit c _ style _ (hregular c hc) (htargets c) hindent
  obtain ⟨cs, hcs, hperm⟩ := List.perm_comp_forall₂ hfiles hunits
  refine ⟨cs, hperm, ?_⟩
  clear hperm hfiles
  rw [Assembly.classifiers_diagramOf]
  generalize { supply with drawn := supply.drawn + 1 } = s
  induction hcs generalizing s with
  | nil => exact .nil
  | @cons file c files cs hfile _ ih =>
    obtain ⟨line, hread⟩ := hfile
    rw [List.flatMap_cons, hread, List.singleton_append]
    exact .cons (retells_of_shows rfl) (ih _)

/-- Where names are distinct, a name means the one classifier that bears it. -/
theorem resolve_name {s : Scope} {owner b : Classifier} {name : String}
    (hdistinct : (s.classifiers.map (·.name)).Nodup) (hname : IsName name) :
    s.resolve owner name = some b ↔ b ∈ s.classifiers ∧ b.name = name := by
  have hpoint : '.' ∉ name.toList := fun hmem =>
    Lexer.ne_of_isNamePart (Lexer.isNamePart_of_mem hname.1 _ hmem) (by decide) rfl
  have hempty : name ≠ "" := fun hempty => isWord_ne_nil hname.1 (by rw [hempty]; rfl)
  rw [Scope.resolve_simple (TypeNames.bare_of_isWord hname.1) hempty hpoint]
  have hunique : ∀ a ∈ s.named name, ∀ c ∈ s.named name, a = c := by
    intro a ha c hc
    obtain ⟨ha, hna⟩ := List.mem_filter.mp ha
    obtain ⟨hc, hnc⟩ := List.mem_filter.mp hc
    exact List.inj_on_of_nodup_map hdistinct ha hc ((beq_iff_eq.mp hna).trans (beq_iff_eq.mp hnc).symm)
  have hmem : b ∈ s.named name ↔ b ∈ s.classifiers ∧ b.name = name := by simp [Scope.named]
  have hfound : (s.lookUp owner name).target? = (s.named name).head? := by
    unfold Scope.lookUp
    cases hnamed : s.named name with
    | nil => rfl
    | cons first others =>
      cases others with
      | nil => rfl
      | cons second others =>
        rw [hnamed] at hunique
        exact congrArg some (hunique _ (Scope.prefer_mem List.mem_cons_self) _ List.mem_cons_self)
  rw [hfound, head?_eq_some_iff hunique, hmem]

/-- A classifier that was read again calls for the supertypes that its header declares. -/
theorem Retells.calls_iff (h : Retells relationships c c') (hc : Regular c)
    (htargets : RegularTargets c relationships) {s : Scope}
    (hdistinct : (s.classifiers.map (·.name)).Nodup) (hb' : b' ∈ s.classifiers) :
    Calls s true c' b' kind ↔ Declares c relationships b'.name kind := by
  have hnone : ∀ t ∈ memberTypes c', TypeNames.ofText t = [] := fun t ht =>
    ofText_basic (isArrayOf_memberTypes hc t (h.types ▸ ht))
  rw [memberTypes_string] at hnone
  have hmeans {name : String} (hdeclares : Declares c relationships name kind) :
      s.resolve c' name = some b' ↔ b'.name = name :=
    (resolve_name hdistinct (hdeclares.isName htargets)).trans (and_iff_right hb')
  constructor
  · intro hcalls
    cases hcalls with
    | superclass wanted declared means =>
      have hdeclares : Declares c relationships _ .inheritance :=
        .inl ⟨rfl, h.declaredSuperclass.symm.trans declared⟩
      rwa [(hmeans hdeclares).mp means]
    | listed wanted declared means =>
      have hdeclares : Declares c relationships _ (listedKind c'.kind) :=
        .inr ⟨congrArg listedKind h.kind, h.declaredInterfaces ▸ declared⟩
      rwa [(hmeans hdeclares).mp means]
    | field member named means =>
      rw [hnone _ (List.mem_append_left _ (List.mem_map_of_mem member))] at named
      cases named
    | returned member typed named means =>
      rw [hnone _ (List.mem_append_right _ (List.mem_flatMap.mpr
        ⟨_, member, List.mem_append_left _ (Option.mem_toList.mpr typed)⟩))] at named
      cases named
    | parameter member taken named means =>
      rw [hnone _ (List.mem_append_right _ (List.mem_flatMap.mpr
        ⟨_, member, List.mem_append_right _ (List.mem_map_of_mem taken)⟩))] at named
      cases named
  · intro hdeclares
    have means := (hmeans hdeclares).mpr rfl
    rcases hdeclares with ⟨rfl, hsuperclass⟩ | ⟨rfl, hlisted⟩
    · exact .superclass rfl (h.declaredSuperclass.trans hsuperclass) means
    · rw [← h.kind]
      exact .listed rfl (h.declaredInterfaces.symm ▸ hlisted) means

/-- Inference finds edges between the classifiers that call for them. -/
theorem mem_found_iff {searchOrder : List String} {withSupertypes : Bool} {found : List Relationship}
    (hreach : Reachable w d) (hexact : Inference.Exact ⟨d.classifiers, searchOrder⟩ withSupertypes found)
    {t : String × String × RelationshipKind} : t ∈ found.map qualifiedEnds ↔
      ∃ a ∈ d.classifiers, ∃ b ∈ d.classifiers, a.key ≠ b.key ∧
        Calls ⟨d.classifiers, searchOrder⟩ withSupertypes a b t.2.2 ∧
        t = (a.qualifiedName, b.qualifiedName, t.2.2) := by
  rw [List.mem_map]
  constructor
  · intro hgiven
    obtain ⟨r, hr, rfl⟩ := hgiven
    obtain ⟨a, ha, b, hb, hsource, htarget, hne⟩ := hexact.proper r hr
    refine ⟨a, ha, b, hb, hne, (hexact.complete a ha b hb hne _).mp ?_, ?_⟩
    · refine List.mem_map.mpr ⟨r, hr, ?_⟩
      rw [triple, hsource, htarget]
      rfl
    · rw [qualifiedEnds, hsource, htarget]
      rfl
  · intro hgiven
    obtain ⟨a, ha, b, hb, hne, hcalls, ht⟩ := hgiven
    obtain ⟨r, hr, htriple⟩ := List.mem_map.mp ((hexact.complete a ha b hb hne _).mpr hcalls)
    obtain ⟨a', ha', b', hb', hsource, htarget, -⟩ := hexact.proper r hr
    rw [triple, hsource, htarget] at htriple
    simp only [Prod.mk.injEq] at htriple
    obtain ⟨hkey, hkey', hkind⟩ := htriple
    obtain rfl := hreach.tracked.eq_of_key ha' ha hkey
    obtain rfl := hreach.tracked.eq_of_key hb' hb hkey'
    refine ⟨r, hr, ?_⟩
    rw [ht, qualifiedEnds, hsource, htarget, hkind]
    rfl

end Retold

/-! ## The whole way -/

/-- Whoever reads the units of a hierarchy again, inference finds the edges that were there. -/
theorem supertypes_reread {read : String → List TypeRecord} (hreads : ReadsUnits read)
    {w : Identity String} {d : Diagram} (h : Reachable w d) (hd : Hierarchy d)
    {style : UnitStyle} (hindent : IsIndent style.indent) {files : List (String × String)}
    (hfiles : files.Perm (units style d)) (name : String) (searchOrder : List String) (supply : Supply) :
    ∃ d' supply', Assembly.ofRecords name (files.flatMap fun f => read f.2) supply = .ok (d', supply') ∧
      ∀ t, t ∈ (Inference.analyze d' searchOrder true supply').1.relationships.map qualifiedEnds ↔
        t ∈ d.relationships.map qualifiedEnds := by
  obtain ⟨cs, hperm, hretold⟩ := exists_retold hreads hd.regular (hd.targets h) hd.distinct hindent
    hfiles name supply
  refine ⟨_, _, Assembly.ofRecords_eq, fun t => ?_⟩
  generalize files.flatMap (fun f => read f.2) = records at hretold ⊢
  generalize Assembly.spent _ _ = supply'
  have hreach : Reachable (Assembly.numbering { supply with drawn := supply.drawn + 1 } id id)
      (diagramOf name records supply) := Assembly.reachable_diagramOf Assembly.numbers_numbering
  have hnames : (diagramOf name records supply).classifiers.map (·.name) = cs.map (·.name) := by
    rw [← List.forall₂_eq_eq_eq, List.forall₂_map_left_iff, List.forall₂_map_right_iff]
    exact hretold.flip.imp fun _ _ hretells => hretells.name
  have hdistinct : ((diagramOf name records supply).classifiers.map (·.name)).Nodup := by
    rw [hnames, (hperm.map _).nodup_iff]
    exact hd.distinct
  have hback : ∀ c' ∈ (diagramOf name records supply).classifiers,
      ∃ c ∈ d.classifiers, Retells d.relationships c c' := fun c' hc' => by
    obtain ⟨c, hc, hretells⟩ := exists_of_forall₂ hretold hc'
    exact ⟨c, hperm.mem_iff.mp hc, hretells⟩
  have hforth : ∀ c ∈ d.classifiers, ∃ c' ∈ (diagramOf name records supply).classifiers,
      Retells d.relationships c c' := fun c hc => exists_of_forall₂ hretold.flip (hperm.mem_iff.mpr hc)
  rw [mem_found_iff hreach (Inference.exact_of_ends hreach (Inference.found_ends hreach searchOrder true supply')),
    hd.mem_qualifiedEnds_iff h]
  constructor
  · intro hgiven
    obtain ⟨a', ha', b', hb', hne, hcalls, ht⟩ := hgiven
    obtain ⟨a, ha, hra⟩ := hback a' ha'
    obtain ⟨b, hb, hrb⟩ := hback b' hb'
    have hdeclares := (hra.calls_iff (hd.regular a ha) (hd.targets h a) hdistinct hb').mp hcalls
    refine ⟨a, ha, b, hb, fun hname => hne ?_, hrb.name ▸ hdeclares, ?_⟩
    · rw [List.inj_on_of_nodup_map hdistinct ha' hb' (hra.name.trans (hname.trans hrb.name.symm))]
    · rw [← hra.qualifiedName, ← hrb.qualifiedName]
      exact ht
  · intro hgiven
    obtain ⟨a, ha, b, hb, hne, hdeclares, ht⟩ := hgiven
    obtain ⟨a', ha', hra⟩ := hforth a ha
    obtain ⟨b', hb', hrb⟩ := hforth b hb
    refine ⟨a', ha', b', hb', fun hkey => hne ?_, ?_, ?_⟩
    · rw [← hra.name, ← hrb.name, hreach.tracked.eq_of_key ha' hb' hkey]
    · rw [hra.calls_iff (hd.regular a ha) (hd.targets h a) hdistinct hb', hrb.name]
      exact hdeclares
    · rw [hra.qualifiedName, hrb.qualifiedName]
      exact ht

/-- Generating all units of a hierarchy, reading them again in any order and running inference gives the
edges that were there: between the same qualified names and of the same kinds. -/
theorem supertypes_survive {w : Identity String} {d : Diagram} (h : Reachable w d) (hd : Hierarchy d)
    {style : UnitStyle} (hindent : IsIndent style.indent) {files : List (String × String)}
    (hfiles : files.Perm (units style d)) (name : String) (searchOrder : List String) (supply : Supply) :
    ∃ d' supply', Assembly.ofRecords name (files.flatMap fun f => extract f.2) supply = .ok (d', supply') ∧
      ∀ t, t ∈ (Inference.analyze d' searchOrder true supply').1.relationships.map qualifiedEnds ↔
        t ∈ d.relationships.map qualifiedEnds :=
  supertypes_reread readsUnits_extract h hd hindent hfiles name searchOrder supply

/-- A circle extends a shape and implements an interface of another namespace; its unit is read first. -/
theorem supertypes_survive_circle :
    let shape := { bareClass 0 "s" with name := "Shape", namespaceName := "shapes", isAbstract := true }
    let drawable := { bareClass 1 "d" with name := "Drawable", kind := .interface }
    let circle := { bareClass 2 "c" with name := "Circle", namespaceName := "shapes.round" }
    let extended := bareEdge 3 circle shape .inheritance
    let implemented := bareEdge 4 circle drawable .implementation
    let w : Identity String := ⟨fun key => if key = 0 then "s" else if key = 1 then "d" else "c",
      fun _ => 2, fun key => if key = 3 then 0 else 1⟩
    let d : Diagram := { (DiagramOf.empty "shapes" "" none none none {}).1 with
      elements := [.classifier shape, .classifier drawable, .classifier circle, .relationship extended,
        .relationship implemented]
      index := [("s", 0), ("d", 1), ("c", 2)] }
    Reachable w d ∧ Hierarchy d ∧ ∃ d' supply',
      Assembly.ofRecords "again" ((units {} d).reverse.flatMap fun f => extract f.2) {} =
        .ok (d', supply') ∧
      ∀ t, t ∈ (Inference.analyze d' [] true supply').1.relationships.map qualifiedEnds ↔
        t ∈ [("shapes.round.Circle", "shapes.Shape", .inheritance),
          ("shapes.round.Circle", "Drawable", .implementation)] := by
  intro shape drawable circle extended implemented w d
  have hreach : Reachable w d := by
    have hnew : Reachable w (DiagramOf.empty "shapes" "" none none none {}).1 := .new ..
    have hshape := hnew.withClassifier (c := shape) rfl rfl
    have hdrawable := hshape.withClassifier (c := drawable) rfl rfl
    have hcircle := hdrawable.withClassifier (c := circle) rfl rfl
    have hextended := hcircle.withRelationship (r := extended) (a := circle) (b := shape)
      (.tail _ (.tail _ (.head _))) (.head _) rfl rfl ⟨rfl, rfl⟩ rfl rfl
    exact hextended.withRelationship (r := implemented) (a := circle) (b := drawable)
      (.tail _ (.tail _ (.head _))) (.tail _ (.head _)) rfl rfl ⟨rfl, rfl⟩ rfl rfl
  have hregular : ∀ c ∈ [shape, drawable, circle], Regular c := by
    refine List.forall_mem_cons.mpr ⟨?_, List.forall_mem_cons.mpr ⟨?_, List.forall_mem_singleton.mpr ?_⟩⟩
    · exact regular_of_bare (by decide) ["shapes"] (by decide) rfl rfl rfl rfl
    · exact regular_of_bare (by decide) [] (by decide) rfl rfl rfl rfl
    · exact regular_of_bare (by decide) ["shapes", "round"] (by decide) rfl rfl rfl rfl
  have hierarchy : Hierarchy d := ⟨hregular, by decide, by decide, by decide, by decide, by decide, by decide⟩
  refine ⟨hreach, hierarchy, ?_⟩
  exact supertypes_survive hreach hierarchy (by decide) (List.reverse_perm _) "again" [] {}

end ClassAtlas.Java
