import ClassAtlas.Java.Extract
import Mathlib.Data.List.Forall2

/-! # Comments in syntax trees

A comment stands before a token until a node with something on either side of it takes it as a child.
What is extracted from a tree does not depend on which of the two it is: comments before a node change
nothing, and neither do comments among the children of a body or a unit. -/

namespace ClassAtlas.Java

open Extract

/-- The same node, perhaps without the comments before it. -/
def Alike (t t' : Tree) : Prop := t' = t ∨ t' = t.takeComments.2

/-- The same tokens, perhaps without the comments before the first. -/
def Headed (ts ts' : List Token) : Prop :=
  ts' = ts ∨ ∃ t rest, ts = t :: rest ∧ ts' = { t with comments := [] } :: rest

theorem Headed.append {ts ts' : List Token} (h : Headed ts ts') (more : List Token) :
    Headed (ts ++ more) (ts' ++ more) := by
  rcases h with rfl | ⟨t, rest, rfl, rfl⟩
  · exact .inl rfl
  · exact .inr ⟨t, rest ++ more, rfl, rfl⟩

namespace Tree

mutual
theorem leaves_takeComments : ∀ t : Tree, Headed t.leaves t.takeComments.2.leaves
  | .leaf _ _ t _ => .inr ⟨t, [], rfl, rfl⟩
  | .node _ _ cs => leavesOf_takeFirstComments cs

theorem leavesOf_takeFirstComments : ∀ cs, Headed (leavesOf cs) (leavesOf (takeFirstComments cs).2)
  | [] => .inl rfl
  | t :: rest => (leaves_takeComments t).append (leavesOf rest)
end

mutual
theorem hasError_takeComments : ∀ t : Tree, t.takeComments.2.hasError = t.hasError
  | .leaf .. => rfl
  | .node _ k cs => congrArg (k == .error || ·) (anyError_takeFirstComments cs)

theorem anyError_takeFirstComments : ∀ cs, anyError (takeFirstComments cs).2 = anyError cs
  | [] => rfl
  | t :: rest => congrArg (· || anyError rest) (hasError_takeComments t)
end

theorem forall₂_takeFirstComments (cs : List Tree) :
    List.Forall₂ Alike cs (takeFirstComments cs).2 := by
  cases cs with
  | nil => exact .nil
  | cons t rest => exact .cons (.inr rfl) (List.forall₂_same.mpr fun _ _ => .inl rfl)

end Tree

/-! ## Single nodes -/

section Alike

variable {t t' : Tree} {cs cs' : List Tree}

theorem Alike.kind (h : Alike t t') : t'.kind = t.kind := by
  rcases h with rfl | rfl
  · rfl
  · cases t <;> rfl

theorem Alike.part? (h : Alike t t') : t'.part? = t.part? := by
  rcases h with rfl | rfl
  · rfl
  · cases t <;> rfl

theorem Alike.hasError (h : Alike t t') : t'.hasError = t.hasError := by
  rcases h with rfl | rfl
  · rfl
  · exact Tree.hasError_takeComments t

theorem Alike.children (h : Alike t t') : List.Forall₂ Alike t.children t'.children := by
  rcases h with rfl | rfl
  · exact List.forall₂_same.mpr fun _ _ => .inl rfl
  · cases t with
    | leaf => exact .nil
    | node p k cs => exact Tree.forall₂_takeFirstComments cs

theorem Alike.leaves (h : Alike t t') : Headed t.leaves t'.leaves := by
  rcases h with rfl | rfl
  · exact .inl rfl
  · exact Tree.leaves_takeComments t

theorem Alike.text (h : Alike t t') : t'.text = t.text := by
  unfold Tree.text
  rcases h.leaves with heq | ⟨first, rest, heq, heq'⟩
  · rw [heq]
  · rw [heq, heq']

theorem Alike.string (h : Alike t t') : t'.string = t.string := congrArg String.ofList h.text

theorem Alike.line (h : Alike t t') : t'.line = t.line := by
  unfold Tree.line
  rcases h.leaves with heq | ⟨first, rest, heq, heq'⟩
  · rw [heq]
  · rw [heq, heq']
    rfl

theorem Alike.isNamed (h : Alike t t') : t'.isNamed = t.isNamed := by
  rw [Tree.isNamed, Tree.isNamed, h.kind]

/-- What is found among nodes that are alike is alike. -/
theorem rel_cases {o o' : Option Tree} (h : Option.Rel Alike o o') :
    (o = none ∧ o' = none) ∨ ∃ t t', o = some t ∧ o' = some t' ∧ Alike t t' := by
  cases h with
  | none => exact .inl ⟨rfl, rfl⟩
  | some h => exact .inr ⟨_, _, rfl, rfl, h⟩

/-- What is the same for nodes that are alike is the same for lists of them. -/
theorem map_alike {α : Type} {f : Tree → α} (h : List.Forall₂ Alike cs cs')
    (hf : ∀ {t t'}, Alike t t' → f t' = f t) : cs'.map f = cs.map f := by
  induction h with
  | nil => rfl
  | cons hhead _ ih => rw [List.map_cons, List.map_cons, hf hhead, ih]

theorem filterMap_alike {α : Type} {f : Tree → Option α} (h : List.Forall₂ Alike cs cs')
    (hf : ∀ {t t'}, Alike t t' → f t' = f t) : cs'.filterMap f = cs.filterMap f := by
  induction h with
  | nil => rfl
  | cons hhead _ ih => rw [List.filterMap_cons, List.filterMap_cons, hf hhead, ih]

theorem flatMap_alike {α : Type} {f : Tree → List α} (h : List.Forall₂ Alike cs cs')
    (hf : ∀ {t t'}, Alike t t' → f t' = f t) : cs'.flatMap f = cs.flatMap f := by
  induction h with
  | nil => rfl
  | cons hhead _ ih => rw [List.flatMap_cons, List.flatMap_cons, hf hhead, ih]

theorem filter_alike {p : Tree → Bool} (h : List.Forall₂ Alike cs cs')
    (hp : ∀ {t t'}, Alike t t' → p t' = p t) : List.Forall₂ Alike (cs.filter p) (cs'.filter p) :=
  List.rel_filter (fun _ _ h => by simp only [hp h]) h

theorem head?_alike (h : List.Forall₂ Alike cs cs') : Option.Rel Alike cs.head? cs'.head? := by
  cases h with
  | nil => exact .none
  | cons hhead _ => exact .some hhead

theorem find?_alike {p : Tree → Bool} (h : List.Forall₂ Alike cs cs')
    (hp : ∀ {t t'}, Alike t t' → p t' = p t) : Option.Rel Alike (cs.find? p) (cs'.find? p) := by
  rw [← List.head?_filter, ← List.head?_filter]
  exact head?_alike (filter_alike h hp)

theorem bind_rel {α : Type} {o o' : Option Tree} {f f' : Tree → Option α}
    (h : Option.Rel Alike o o') (hf : ∀ {t t'}, Alike t t' → f' t' = f t) :
    o'.bind f' = o.bind f := by
  cases h with
  | none => rfl
  | some h => exact hf h

theorem map_rel {α : Type} {o o' : Option Tree} {f : Tree → α} (h : Option.Rel Alike o o')
    (hf : ∀ {t t'}, Alike t t' → f t' = f t) : o'.map f = o.map f := by
  cases h with
  | none => rfl
  | some h => exact congrArg some (hf h)

theorem Alike.child? (h : Alike t t') (p : Part) : Option.Rel Alike (t.child? p) (t'.child? p) :=
  find?_alike h.children fun h => by rw [h.part?]

theorem Alike.childOfKind? (h : Alike t t') (k : Kind) :
    Option.Rel Alike (t.childOfKind? k) (t'.childOfKind? k) :=
  find?_alike h.children fun h => by rw [h.kind]

theorem Alike.childrenAs (h : Alike t t') (p : Part) :
    List.Forall₂ Alike (t.childrenAs p) (t'.childrenAs p) :=
  filter_alike h.children fun h => by rw [h.part?]

theorem Alike.namedChildren (h : Alike t t') :
    List.Forall₂ Alike t.namedChildren t'.namedChildren :=
  filter_alike h.children Alike.isNamed

end Alike

/-! ## What is extracted -/

section Extracted

variable {t t' : Tree}

theorem Alike.partText? (h : Alike t t') (p : Part) : partText? t' p = partText? t p := by
  rw [Extract.partText?, Extract.partText?, map_rel (h.child? p) Alike.string]

theorem Alike.headerHasError (h : Alike t t') : headerHasError t' = headerHasError t := by
  have hany := map_alike (f := fun c => c.kind != .typeBody && c.kind != .block && c.hasError)
    h.children fun h => by rw [h.kind, h.hasError]
  have hid := congrArg (·.any id) hany
  simpa [Extract.headerHasError] using hid

theorem Alike.normalized (h : Alike t t') : normalized t' = normalized t := by
  rw [Extract.normalized, Extract.normalized, h.string]

theorem Alike.modifierWords (h : Alike t t') : modifierWords t' = modifierWords t := by
  unfold Extract.modifierWords
  rcases rel_cases (h.childOfKind? .modifiers) with ⟨hnone, hnone'⟩ | ⟨m, m', hm, hm', halike⟩
  · rw [hnone, hnone']
  · rw [hm, hm']
    exact map_alike (filter_alike halike.children fun h => by rw [h.kind]) Alike.string

theorem Alike.declaredType (h : Alike t t') (base : String) :
    declaredType base t' = declaredType base t := by
  unfold Extract.declaredType
  rcases rel_cases (h.child? .dimensions) with ⟨hnone, hnone'⟩ | ⟨d, d', hd, hd', halike⟩
  · rw [hnone, hnone']
  · rw [hd, hd']
    simp only [halike.string]

/-- Comments before a field change nothing in it. -/
theorem Alike.fields (h : Alike t t') (owner : ClassifierKind) : fields owner t' = fields owner t := by
  unfold Extract.fields
  rw [h.headerHasError, h.modifierWords]
  rcases rel_cases (h.child? .type) with ⟨hnone, hnone'⟩ | ⟨u, u', hu, hu', halike⟩
  · rw [hnone, hnone']
  · rw [hu, hu']
    simp only [halike.normalized]
    rw [filterMap_alike (h.childrenAs .declarator) fun {d d'} hd => ?_]
    rw [hd.partText?, hd.declaredType, map_rel (hd.child? .value) fun h => by rw [h.string]]

theorem Alike.plainParameter? (h : Alike t t') : plainParameter? t' = plainParameter? t := by
  unfold Extract.plainParameter?
  rw [h.partText?, map_rel (h.child? .dimensions) Alike.string]
  exact bind_rel (h.child? .type) fun halike => by rw [halike.string]

theorem getLast?_alike {cs cs' : List Tree} (h : List.Forall₂ Alike cs cs') :
    Option.Rel Alike cs.getLast? cs'.getLast? := by
  rw [List.getLast?_eq_head?_reverse, List.getLast?_eq_head?_reverse]
  exact head?_alike (List.rel_reverse h)

theorem Alike.variableParameter? (h : Alike t t') : variableParameter? t' = variableParameter? t := by
  have hparts := filter_alike (p := fun c => c.kind != .modifiers) h.namedChildren
    fun h => by rw [h.kind]
  refine bind_rel (head?_alike hparts) fun hfirst => ?_
  refine bind_rel (getLast?_alike hparts) fun hlast => ?_
  simp only [hparts.length_eq, hlast.kind, hlast.partText?, hfirst.normalized]

theorem Alike.parameter? (h : Alike t t') : parameter? t' = parameter? t := by
  rw [Extract.parameter?, Extract.parameter?, h.kind, h.plainParameter?, h.variableParameter?]

/-- Comments before an operation change nothing in it. -/
theorem Alike.operation? (h : Alike t t') (owner : ClassifierKind) :
    operation? owner t' = operation? owner t := by
  unfold Extract.operation?
  rw [h.headerHasError, h.modifierWords, h.partText?]
  split
  · rfl
  · refine Option.bind_congr fun name _ => ?_
    refine bind_rel (h.child? .type) fun htype => ?_
    refine bind_rel (h.child? .parameters) fun hparameters => ?_
    rw [htype.normalized, filterMap_alike hparameters.namedChildren Alike.parameter?]

theorem Alike.superclass? (h : Alike t t') : superclass? t' = superclass? t := by
  unfold Extract.superclass?
  rcases rel_cases (h.child? .superclass) with ⟨hnone, hnone'⟩ | ⟨u, u', hu, hu', halike⟩
  · rw [hnone, hnone']
  · rw [hu, hu']
    exact map_rel (head?_alike halike.namedChildren) Alike.normalized

theorem Alike.listed (h : Alike t t') (clause : Kind) : listed t' clause = listed t clause := by
  unfold Extract.listed
  rcases rel_cases (h.childOfKind? clause) with ⟨hnone, hnone'⟩ | ⟨u, u', hu, hu', halike⟩
  · rw [hnone, hnone']
  · have hlists := filter_alike (p := (·.kind == .typeList)) halike.namedChildren
      fun h => by rw [h.kind]
    rw [hu, hu']
    exact flatMap_alike hlists fun h => map_alike h.namedChildren Alike.normalized

end Extracted

/-! ## Comments among other nodes -/

/-- The same nodes, perhaps without the comments before them and with comments between them. -/
inductive Commented : List Tree → List Tree → Prop
  | nil : Commented [] []
  | cons {t t' : Tree} {cs cs' : List Tree} (head : Alike t t') (rest : Commented cs cs') :
    Commented (t :: cs) (t' :: cs')
  | comment {c : Tree} {cs cs' : List Tree} (kind : c.kind = .comment) (rest : Commented cs cs') :
    Commented cs (c :: cs')

section Commented

variable {cs cs' ds ds' : List Tree}

theorem Commented.of_forall₂ (h : List.Forall₂ Alike cs cs') : Commented cs cs' := by
  induction h with
  | nil => exact .nil
  | cons hhead _ ih => exact .cons hhead ih

theorem Commented.refl (cs : List Tree) : Commented cs cs :=
  .of_forall₂ (List.forall₂_same.mpr fun _ _ => .inl rfl)

theorem Commented.append (h : Commented cs cs') (h' : Commented ds ds') :
    Commented (cs ++ ds) (cs' ++ ds') := by
  induction h with
  | nil => exact h'
  | cons hhead _ ih => exact .cons hhead ih
  | comment hkind _ ih => exact .comment hkind ih

theorem Commented.withComments (t : Tree) : Commented [t] t.withComments := by
  unfold Tree.withComments
  dsimp only
  induction t.takeComments.1 with
  | nil => exact .cons (.inr rfl) .nil
  | cons c comments ih => exact .comment rfl ih

/-- Setting comments apart. -/
theorem Commented.spread (cs : List Tree) : Commented cs (Tree.spread cs) := by
  cases cs with
  | nil => exact .nil
  | cons first rest =>
    refine .cons (.inl rfl) ?_
    induction rest with
    | nil => exact .nil
    | cons t rest ih => exact (Commented.withComments t).append ih

theorem Commented.flatMap_eq {α : Type} {f : Tree → List α} (h : Commented cs cs')
    (hf : ∀ {t t'}, t ∈ cs → Alike t t' → f t' = f t)
    (hcomment : ∀ {c}, c.kind = .comment → f c = []) : cs'.flatMap f = cs.flatMap f := by
  induction h with
  | nil => rfl
  | cons hhead _ ih =>
    rw [List.flatMap_cons, List.flatMap_cons, hf List.mem_cons_self hhead,
      ih fun ht => hf (List.mem_cons_of_mem _ ht)]
  | comment hkind _ ih => rw [List.flatMap_cons, hcomment hkind, ih hf, List.nil_append]

theorem Commented.filter {p : Tree → Bool} (h : Commented cs cs')
    (hp : ∀ {t t'}, Alike t t' → p t' = p t) (hcomment : ∀ {c}, c.kind = .comment → p c = false) :
    List.Forall₂ Alike (cs.filter p) (cs'.filter p) := by
  induction h with
  | nil => exact .nil
  | cons hhead hrest ih =>
    rw [List.filter_cons, List.filter_cons, hp hhead]
    split
    · exact .cons hhead ih
    · exact ih
  | comment hkind hrest ih =>
    rw [List.filter_cons, hcomment hkind]
    exact ih

theorem Commented.filterMap_eq {α : Type} {f : Tree → Option α} (h : Commented cs cs')
    (hf : ∀ {t t'}, Alike t t' → f t' = f t) (hcomment : ∀ {c}, c.kind = .comment → f c = none) :
    cs'.filterMap f = cs.filterMap f := by
  rw [List.filterMap_eq_flatMap_toList, List.filterMap_eq_flatMap_toList]
  exact h.flatMap_eq (fun _ h => by rw [hf h]) fun hkind => by rw [hcomment hkind]; rfl

/-- Bodies with the same nodes have the same members. -/
theorem Commented.members (h : Commented cs cs') :
    Commented (cs.flatMap fun c => if c.kind == .enumMembers then c.children else [c])
      (cs'.flatMap fun c => if c.kind == .enumMembers then c.children else [c]) := by
  induction h with
  | nil => exact .nil
  | cons hhead _ ih =>
    rw [List.flatMap_cons, List.flatMap_cons, hhead.kind]
    refine Commented.append ?_ ih
    split
    · exact .of_forall₂ hhead.children
    · exact .cons hhead .nil
  | comment hkind _ ih =>
    rw [List.flatMap_cons, hkind]
    exact .comment hkind ih

theorem Commented.memberFields (h : Commented cs cs') (owner : ClassifierKind) :
    memberFields owner cs' = memberFields owner cs :=
  h.flatMap_eq (fun _ h => by rw [h.kind, h.fields]) fun hkind => by rw [hkind]; rfl

theorem Commented.memberOperations (h : Commented cs cs') (owner : ClassifierKind) (name : String) :
    memberOperations owner name cs' = memberOperations owner name cs :=
  congrArg (List.filter _) <|
    h.filterMap_eq (fun h => by rw [h.kind, h.operation?]) fun hkind => by rw [hkind]; rfl

theorem Commented.memberLiterals (h : Commented cs cs') : memberLiterals cs' = memberLiterals cs :=
  h.filterMap_eq (fun h => by rw [h.kind, h.partText?]) fun hkind => by rw [hkind]; rfl

end Commented

/-! ## Types -/

/-- The members in the body of a declaration. -/
def bodyNodes (t : Tree) : List Tree := ((t.child? .body).map memberNodes).getD []

section Types

variable {t t' : Tree} {namespaceName : String}

theorem sizeOf_lt_of_mem_bodyNodes {m : Tree} (h : m ∈ bodyNodes t) : sizeOf m < sizeOf t := by
  unfold bodyNodes at h
  cases hbody : t.child? .body with
  | none =>
    rw [hbody] at h
    cases h
  | some b =>
    rw [hbody] at h
    exact sizeOf_lt_of_mem_members hbody h

theorem Alike.bodyNodes (h : Alike t t') : Commented (bodyNodes t) (bodyNodes t') := by
  unfold Java.bodyNodes
  rcases rel_cases (h.child? .body) with ⟨hnone, hnone'⟩ | ⟨b, b', hb, hb', halike⟩
  · rw [hnone, hnone']
    exact .nil
  · rw [hb, hb']
    exact (Commented.of_forall₂ halike.children).members

theorem Alike.record (h : Alike t t') (kind : ClassifierKind) (name : String) :
    record kind name namespaceName t' = record kind name namespaceName t := by
  have hmembers := h.bodyNodes
  have hfields := hmembers.memberFields kind
  have hoperations := hmembers.memberOperations kind name
  have hliterals := hmembers.memberLiterals
  unfold Java.bodyNodes at hfields hoperations hliterals
  simp only [Extract.record, h.modifierWords, h.superclass?, h.listed, h.line, hfields, hoperations,
    hliterals]

/-- The records of a declaration: its own, and those of its members. -/
theorem recordsOf_eq : recordsOf namespaceName t =
    match typeKind? t.kind, partText? t .name with
    | some kind, some name =>
      if headerHasError t then []
      else record kind name namespaceName t :: (bodyNodes t).flatMap (recordsOf namespaceName)
    | _, _ => [] := by
  rw [recordsOf]
  cases typeKind? t.kind with
  | none => rfl
  | some kind =>
    cases partText? t .name with
    | none => rfl
    | some name =>
      dsimp only
      split
      · rfl
      · unfold bodyNodes
        split
        · rename_i hbody
          rw [hbody]
          rfl
        · rename_i b hbody
          rw [hbody]
          simp

/-- Comments before a declaration change nothing in its records. -/
theorem Alike.recordsOf {t t' : Tree} (h : Alike t t') :
    recordsOf namespaceName t' = recordsOf namespaceName t := by
  have hmembers : (Java.bodyNodes t').flatMap (Extract.recordsOf namespaceName) =
      (Java.bodyNodes t).flatMap (Extract.recordsOf namespaceName) := by
    refine h.bodyNodes.flatMap_eq (fun hm halike => ?_) fun hkind => ?_
    · have := sizeOf_lt_of_mem_bodyNodes hm
      exact halike.recordsOf
    · rw [recordsOf_eq, hkind]
      rfl
  rw [recordsOf_eq, recordsOf_eq, h.kind, h.partText?, h.headerHasError, hmembers]
  simp only [h.record]
termination_by sizeOf t

end Types

/-! ## Units -/

section Units

variable {cs cs' : List Tree} {namespaceName : String}

theorem collect_eq {t : Tree} : collect namespaceName t =
    if t.kind == .error then t.children.flatMap (collect namespaceName)
    else recordsOf namespaceName t := by
  rw [collect]
  simp

theorem Alike.collect {t t' : Tree} (h : Alike t t') :
    collect namespaceName t' = collect namespaceName t := by
  have hchildren : t'.children.flatMap (Extract.collect namespaceName) =
      t.children.flatMap (Extract.collect namespaceName) := by
    refine (Commented.of_forall₂ h.children).flatMap_eq (fun hc halike => ?_) fun hkind => ?_
    · have := sizeOf_lt_of_mem_children hc
      exact halike.collect
    · rw [collect_eq, recordsOf_eq, hkind]
      rfl
  rw [collect_eq, collect_eq, h.kind, hchildren, h.recordsOf]
termination_by sizeOf t

theorem Commented.packageName {p p' : Option Part} {k k' : Kind} (h : Commented cs cs') :
    packageName (.node p' k' cs') = packageName (.node p k cs) := by
  have hpackages := h.filter (p := (·.kind == .package)) (fun h => by rw [h.kind])
    fun hkind => by rw [hkind]; rfl
  have hnames : List.Forall₂ Alike
      ((cs.filter (·.kind == .package)).filterMap fun p => p.namedChildren.find? (·.kind == .identifier))
      ((cs'.filter (·.kind == .package)).filterMap fun p =>
        p.namedChildren.find? (·.kind == .identifier)) :=
    List.rel_filterMap (fun _ _ h => find?_alike h.namedChildren fun h => by rw [h.kind]) hpackages
  unfold Extract.packageName
  simp only [Tree.children]
  generalize List.filterMap _ (cs.filter _) = names at hnames ⊢
  generalize List.filterMap _ (cs'.filter _) = names' at hnames ⊢
  cases hnames with
  | nil => rfl
  | cons hhead _ => simp only [hhead.text]

/-- Comments between the declarations of a unit change nothing in its records. -/
theorem Commented.ofTree {p p' : Option Part} {k k' : Kind} (h : Commented cs cs') (hint : String) :
    ofTree (.node p' k' cs') hint = ofTree (.node p k cs) hint := by
  unfold Extract.ofTree
  rw [h.packageName (p := p) (k := k)]
  refine h.flatMap_eq (fun _ h => h.collect) fun hkind => ?_
  rw [collect_eq, recordsOf_eq, hkind]
  rfl

end Units

end ClassAtlas.Java
