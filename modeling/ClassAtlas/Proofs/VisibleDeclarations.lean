import ClassAtlas.Proofs.CommentedTrees
import Mathlib.Data.List.Induction

/-! # Visible declarations

What the records of a tree are can be said without following the search for them. A place in a tree is the
numbers of the children on the way to it, and places have an order: a node comes before everything in it,
and that before the next node. The records are those of the visible declarations in the order of their
places, and each tells the well-formed members of its own body and no others. -/

namespace ClassAtlas.Java

open Extract

/-! ## Things at places -/

/-- The things at some places, told in the order of the places. -/
def Enumerates {α β : Type} (place : List Nat → α → Prop) (tells : α → β → Prop) (xs : List β) : Prop :=
  ∃ found : List (List Nat × α), found.Pairwise (fun e e' => e.1 < e'.1) ∧
    (∀ p a, (p, a) ∈ found ↔ place p a) ∧ List.Forall₂ (fun e x => tells e.2 x) found xs

/-- Something at a place in one of several trees. -/
def InChildren {α : Type} (cs : List Tree) (place : Tree → List Nat → α → Prop) (p : List Nat) (a : α) :
    Prop :=
  ∃ i c q, cs[i]? = some c ∧ p = i :: q ∧ place c q a

theorem inChildren_concat {α : Type} {cs : List Tree} {c : Tree} {place : Tree → List Nat → α → Prop}
    {p : List Nat} {a : α} : InChildren (cs ++ [c]) place p a ↔
      InChildren cs place p a ∨ ∃ q, p = cs.length :: q ∧ place c q a := by
  constructor
  · rintro ⟨i, d, q, hd, rfl, hplace⟩
    rcases Nat.lt_trichotomy i cs.length with hi | rfl | hi
    · rw [List.getElem?_append_left hi] at hd
      exact .inl ⟨i, d, q, hd, rfl, hplace⟩
    · rw [List.getElem?_concat_length] at hd
      cases hd
      exact .inr ⟨q, rfl, hplace⟩
    · rw [List.getElem?_eq_none (by rw [List.length_append]; exact hi)] at hd
      cases hd
  · rintro (⟨i, d, q, hd, rfl, hplace⟩ | ⟨q, rfl, hplace⟩)
    · obtain ⟨hi, -⟩ := List.getElem?_eq_some_iff.mp hd
      exact ⟨i, d, q, (List.getElem?_append_left hi).trans hd, rfl, hplace⟩
    · exact ⟨cs.length, c, q, List.getElem?_concat_length, rfl, hplace⟩

namespace Enumerates

variable {α β : Type} {place place' : List Nat → α → Prop} {tells : α → β → Prop} {xs ys : List β} {a : α}
  {x : β}

theorem congr (h : Enumerates place tells xs) (hplace : ∀ p a, place p a ↔ place' p a) :
    Enumerates place' tells xs := by
  obtain ⟨found, hordered, hfound, htold⟩ := h
  exact ⟨found, hordered, fun p a => (hfound p a).trans (hplace p a), htold⟩

theorem nil (h : ∀ p a, ¬ place p a) : Enumerates place tells [] :=
  ⟨[], .nil, fun p a => ⟨fun hmem => absurd hmem List.not_mem_nil, fun hplace => absurd hplace (h p a)⟩, .nil⟩

theorem append (h : Enumerates place tells xs) (h' : Enumerates place' tells ys)
    (hlt : ∀ p a p' a', place p a → place' p' a' → p < p') :
    Enumerates (fun p a => place p a ∨ place' p a) tells (xs ++ ys) := by
  obtain ⟨found, hordered, hfound, htold⟩ := h
  obtain ⟨found', hordered', hfound', htold'⟩ := h'
  refine ⟨found ++ found', List.pairwise_append.mpr ⟨hordered, hordered', ?_⟩, fun p a => ?_,
    List.rel_append htold htold'⟩
  · intro e he e' he'
    exact hlt e.1 e.2 e'.1 e'.2 ((hfound e.1 e.2).mp he) ((hfound' e'.1 e'.2).mp he')
  · rw [List.mem_append, hfound, hfound']

theorem single (hx : tells a x) : Enumerates (fun p b => p = [] ∧ b = a) tells [x] :=
  ⟨[([], a)], List.pairwise_singleton _ _, fun p b => by simp, .cons hx .nil⟩

/-- A node is told before what is in it. -/
theorem cons (h : Enumerates place tells xs) (hx : tells a x) (hne : ∀ p b, place p b → p ≠ []) :
    Enumerates (fun p b => p = [] ∧ b = a ∨ place p b) tells (x :: xs) := by
  refine (single hx).append h ?_
  rintro _ _ p b ⟨rfl, -⟩ hplace
  obtain ⟨i, q, rfl⟩ := List.exists_cons_of_ne_nil (hne p b hplace)
  exact List.nil_lt_cons i q

/-- Something is told of a node just when there is something to tell. -/
theorem ofOption {x? : Option β} {good : Prop} (hsome : ∀ x, x? = some x → good ∧ tells a x)
    (hnone : x? = none → ¬ good) : Enumerates (fun p b => p = [] ∧ b = a ∧ good) tells x?.toList := by
  cases hx : x? with
  | none => exact nil fun p b hplace => hnone hx hplace.2.2
  | some x =>
    obtain ⟨hgood, htells⟩ := hsome x hx
    exact (single htells).congr fun p b => by simp [hgood]

theorem below (h : Enumerates place tells xs) (i : Nat) :
    Enumerates (fun p a => ∃ q, p = i :: q ∧ place q a) tells xs := by
  obtain ⟨found, hordered, hfound, htold⟩ := h
  refine ⟨found.map fun e => (i :: e.1, e.2), ?_, fun p a => ?_, List.forall₂_map_left_iff.mpr htold⟩
  · rw [List.pairwise_map]
    exact hordered.imp fun hlt => List.cons_lt_cons_iff.mpr (.inr ⟨rfl, hlt⟩)
  · constructor
    · intro hmem
      obtain ⟨e, he, heq⟩ := List.mem_map.mp hmem
      cases heq
      exact ⟨e.1, rfl, (hfound e.1 e.2).mp he⟩
    · rintro ⟨q, rfl, hplace⟩
      exact List.mem_map.mpr ⟨(q, a), (hfound q a).mpr hplace, rfl⟩

theorem exists_place (h : Enumerates place tells xs) (hx : x ∈ xs) : ∃ p a, place p a ∧ tells a x := by
  obtain ⟨found, -, hfound, htold⟩ := h
  obtain ⟨i, hi, rfl⟩ := List.mem_iff_getElem.mp hx
  have hlength : i < found.length := htold.length_eq ▸ hi
  have hmem : (found[i].1, found[i].2) ∈ found := List.getElem_mem hlength
  exact ⟨_, _, (hfound _ _).mp hmem, htold.get hlength hi⟩

theorem exists_told {p : List Nat} (h : Enumerates place tells xs) (ha : place p a) :
    ∃ x ∈ xs, tells a x := by
  obtain ⟨found, -, hfound, htold⟩ := h
  obtain ⟨i, hi, heq⟩ := List.mem_iff_getElem.mp ((hfound p a).mpr ha)
  have hlength : i < xs.length := htold.length_eq ▸ hi
  have htells : tells found[i].2 xs[i] := htold.get hi hlength
  rw [heq] at htells
  exact ⟨xs[i], List.getElem_mem hlength, htells⟩

theorem children {cs : List Tree} {place : Tree → List Nat → α → Prop} {f : Tree → List β}
    (h : ∀ c ∈ cs, Enumerates (place c) tells (f c)) :
    Enumerates (InChildren cs place) tells (cs.flatMap f) := by
  induction cs using List.reverseRecOn with
  | nil => exact nil fun p a hplace => by simp [InChildren] at hplace
  | append_singleton cs c ih =>
    have hlast := (h c (by simp)).below cs.length
    have hboth := (ih fun c hc => h c (List.mem_append_left _ hc)).append hlast ?_
    · rw [List.flatMap_append, List.flatMap_singleton]
      exact hboth.congr fun p a => inChildren_concat.symm
    · rintro _ a _ a' ⟨i, d, q, hd, rfl, -⟩ ⟨q', rfl, -⟩
      obtain ⟨hi, -⟩ := List.getElem?_eq_some_iff.mp hd
      exact List.cons_lt_cons_iff.mpr (.inl hi)

end Enumerates

/-! ## Members of a body -/

/-- The first child that plays the body. -/
structure IsBodyOf (t : Tree) (i : Nat) (b : Tree) : Prop where
  child : t.children[i]? = some b
  part : b.part? = some .body
  first : ∀ j < i, ∀ c, t.children[j]? = some c → c.part? ≠ some .body

/-- The members of a declaration with their places in it. Those behind the constants of an enumeration stand
one level deeper. -/
inductive DirectMember (t : Tree) : List Nat → Tree → Prop where
  | listed {i j : Nat} {b m : Tree} : IsBodyOf t i b → b.children[j]? = some m → m.kind ≠ .enumMembers →
      DirectMember t [i, j] m
  | grouped {i j k : Nat} {b g m : Tree} : IsBodyOf t i b → b.children[j]? = some g →
      g.kind = .enumMembers → g.children[k]? = some m → DirectMember t [i, j, k] m

/-- Something at a place in a member of a declaration. -/
def InMembers {α : Type} (t : Tree) (place : Tree → List Nat → α → Prop) (p : List Nat) (a : α) : Prop :=
  ∃ m c q, DirectMember t m c ∧ p = m ++ q ∧ place c q a

/-- Something at a place in a child of a body. The members of a group are not looked at as one. -/
def InListed {α : Type} (place : Tree → List Nat → α → Prop) (c : Tree) (p : List Nat) (a : α) : Prop :=
  if c.kind = .enumMembers then InChildren c.children place p a else place c p a

section Members

variable {α β : Type} {place : Tree → List Nat → α → Prop} {tells : α → β → Prop} {f : Tree → List β}
  {t b c c' : Tree} {i i' : Nat} {m m' r r' : List Nat}

theorem child?_body : t.child? .body = some b ↔ ∃ i, IsBodyOf t i b := by
  rw [Tree.child?, List.find?_eq_some_iff_getElem]
  constructor
  · rintro ⟨hpart, i, hi, hb, hfirst⟩
    refine ⟨i, (List.getElem?_eq_some_iff.mpr ⟨hi, hb⟩), by simpa using hpart, fun j hj c hc => ?_⟩
    obtain ⟨hlt, rfl⟩ := List.getElem?_eq_some_iff.mp hc
    simpa using hfirst j hj
  · rintro ⟨i, hchild, hpart, hfirst⟩
    obtain ⟨hi, hb⟩ := List.getElem?_eq_some_iff.mp hchild
    refine ⟨by simpa using hpart, i, hi, hb, fun j hj => ?_⟩
    have hother := hfirst j hj _ (List.getElem?_eq_getElem (Nat.lt_trans hj hi))
    simpa using hother

theorem IsBodyOf.unique (h : IsBodyOf t i b) (h' : IsBodyOf t i' c) : i = i' ∧ b = c := by
  rcases Nat.lt_trichotomy i i' with hlt | rfl | hlt
  · exact absurd h.part (h'.first i hlt b h.child)
  · exact ⟨rfl, Option.some.inj (h.child.symm.trans h'.child)⟩
  · exact absurd h'.part (h.first i' hlt c h'.child)

/-- The way to a member does not pass another one. -/
theorem DirectMember.unique (h : DirectMember t m c) (h' : DirectMember t m' c')
    (hplace : m ++ r = m' ++ r') : m = m' ∧ c = c' ∧ r = r' := by
  cases h with
  | listed hb hc hkind =>
    cases h' with
    | listed hb' hc' _ =>
      obtain ⟨-, rfl⟩ := hb.unique hb'
      simp only [List.cons_append, List.nil_append, List.cons.injEq] at hplace
      obtain ⟨rfl, rfl, rfl⟩ := hplace
      exact ⟨rfl, Option.some.inj (hc.symm.trans hc'), rfl⟩
    | grouped hb' hg hgroup _ =>
      obtain ⟨-, rfl⟩ := hb.unique hb'
      simp only [List.cons_append, List.nil_append, List.cons.injEq] at hplace
      obtain ⟨rfl, rfl, -⟩ := hplace
      cases Option.some.inj (hc.symm.trans hg)
      exact absurd hgroup hkind
  | grouped hb hg hgroup hc =>
    cases h' with
    | listed hb' hc' hkind =>
      obtain ⟨-, rfl⟩ := hb.unique hb'
      simp only [List.cons_append, List.nil_append, List.cons.injEq] at hplace
      obtain ⟨rfl, rfl, -⟩ := hplace
      cases Option.some.inj (hg.symm.trans hc')
      exact absurd hgroup hkind
    | grouped hb' hg' _ hc' =>
      obtain ⟨-, rfl⟩ := hb.unique hb'
      simp only [List.cons_append, List.nil_append, List.cons.injEq] at hplace
      obtain ⟨rfl, rfl, rfl, rfl⟩ := hplace
      cases Option.some.inj (hg.symm.trans hg')
      exact ⟨rfl, Option.some.inj (hc.symm.trans hc'), rfl⟩

theorem DirectMember.ne_nil (h : DirectMember t m c) : m ≠ [] := by
  cases h <;> exact List.cons_ne_nil _ _

theorem inMembers_iff {p : List Nat} {a : α} (hb : IsBodyOf t i b) :
    InMembers t place p a ↔ ∃ q, p = i :: q ∧ InChildren b.children (InListed place) q a := by
  constructor
  · rintro ⟨_, c, q, hmember, rfl, hplace⟩
    cases hmember with
    | @listed _ j _ _ hb' hc hkind =>
      obtain ⟨rfl, rfl⟩ := hb.unique hb'
      refine ⟨j :: q, rfl, j, c, q, hc, rfl, ?_⟩
      rwa [InListed, if_neg hkind]
    | @grouped _ j k _ g _ hb' hg hgroup hc =>
      obtain ⟨rfl, rfl⟩ := hb.unique hb'
      refine ⟨j :: k :: q, rfl, j, g, k :: q, hg, rfl, ?_⟩
      rw [InListed, if_pos hgroup]
      exact ⟨k, c, q, hc, rfl, hplace⟩
  · rintro ⟨_, rfl, j, c, q, hc, rfl, hplace⟩
    rw [InListed] at hplace
    split at hplace
    · rename_i hgroup
      obtain ⟨k, d, q, hd, rfl, hplace⟩ := hplace
      exact ⟨[i, j, k], d, q, .grouped hb hc hgroup hd, rfl, hplace⟩
    · rename_i hkind
      exact ⟨[i, j], c, q, .listed hb hc hkind, rfl, hplace⟩

/-- What is told of each member is told of the declaration, in the order of the members. -/
theorem Enumerates.members (h : ∀ c ∈ bodyNodes t, Enumerates (place c) tells (f c)) :
    Enumerates (InMembers t place) tells ((bodyNodes t).flatMap f) := by
  cases hbody : t.child? .body with
  | none =>
    have hnone : ∀ i b, ¬ IsBodyOf t i b := fun i b hb => by
      rw [child?_body.mpr ⟨i, hb⟩] at hbody
      cases hbody
    rw [bodyNodes, hbody]
    refine nil fun p a => ?_
    rintro ⟨_, c, q, hmember, -, -⟩
    cases hmember with
    | listed hb => exact hnone _ _ hb
    | grouped hb => exact hnone _ _ hb
  | some b =>
    obtain ⟨i, hb⟩ := child?_body.mp hbody
    have hnodes : bodyNodes t = b.children.flatMap fun c =>
        if c.kind == .enumMembers then c.children else [c] := by
      rw [bodyNodes, hbody]
      rfl
    rw [hnodes] at h ⊢
    rw [List.flatMap_assoc]
    refine Enumerates.congr ((children fun c hc => ?_).below i) fun p a => (inMembers_iff hb).symm
    have hin : ∀ d ∈ (if c.kind == .enumMembers then c.children else [c]),
        Enumerates (place d) tells (f d) := fun d hd => h d (List.mem_flatMap.mpr ⟨c, hc, hd⟩)
    split at hin
    · rename_i hgroup
      rw [if_pos hgroup]
      refine (children hin).congr fun p a => ?_
      rw [InListed, if_pos (beq_iff_eq.mp hgroup)]
    · rename_i hkind
      rw [if_neg hkind, List.flatMap_singleton]
      refine (hin c (List.mem_singleton.mpr rfl)).congr fun p a => ?_
      rw [InListed, if_neg (mt beq_iff_eq.mpr hkind)]

end Members

/-! ## Declarations that are seen -/

/-- A class, an interface or an enumeration. -/
def Announces (t : Tree) : Prop := (typeKind? t.kind).isSome

/-- Nothing is wrong outside the body of a declaration. -/
def CleanHeader (t : Tree) : Prop :=
  ∀ c ∈ t.children, c.kind ≠ .typeBody → c.kind ≠ .block → c.hasError = false

/-- A declaration that has a name and a clean header. -/
structure Sound (t : Tree) : Prop where
  declares : Announces t
  named : (partText? t .name).isSome
  clean : CleanHeader t

/-- The children of a root, and those of errors that are found among them. -/
inductive Searched : Tree → List Nat → Tree → Prop where
  | child {root c : Tree} {i : Nat} : root.children[i]? = some c → Searched root [i] c
  | error {root e c : Tree} {i : Nat} {p : List Nat} : root.children[i]? = some e → e.kind = .error →
      Searched e p c → Searched root (i :: p) c

/-- A declaration, and those among its members and theirs, if all on the way are as they should be. -/
inductive Nested (ok : Tree → Prop) : Tree → List Nat → Tree → Prop where
  | self {t : Tree} : ok t → Nested ok t [] t
  | member {t c d : Tree} {m p : List Nat} : ok t → DirectMember t m c → Nested ok c p d →
      Nested ok t (m ++ p) d

/-- The declarations of a unit. -/
def Found (ok : Tree → Prop) (unit : Tree) (p : List Nat) (t : Tree) : Prop :=
  ∃ q top r, Searched unit q top ∧ Nested ok top r t ∧ p = q ++ r

/-- A declaration of a unit, whatever is wrong with it. -/
def Declared : Tree → List Nat → Tree → Prop := Found Announces

/-- A sound declaration of a unit, with sound ones around it. -/
def Visible : Tree → List Nat → Tree → Prop := Found Sound

section Seen

variable {ok : Tree → Prop} {unit t t' c c' d d' root : Tree} {m m' p p' q q' r r' : List Nat}

theorem headerHasError_eq_false : headerHasError t = false ↔ CleanHeader t := by
  simp [headerHasError, CleanHeader]

theorem Nested.ok_start (h : Nested ok t p d) : ok t := by
  cases h <;> assumption

theorem Nested.mono {ok' : Tree → Prop} (h : Nested ok t p d) (hok : ∀ t, ok t → ok' t) :
    Nested ok' t p d := by
  induction h with
  | self ht => exact .self (hok _ ht)
  | member ht hmember _ ih => exact .member (hok _ ht) hmember ih

/-- A member of a declaration is a member of no other. -/
theorem Nested.unique (h : Nested ok t p d) (h' : Nested ok t p' d') (hmember : DirectMember d m c)
    (hmember' : DirectMember d' m' c') (hplace : p ++ m = p' ++ m') :
    p = p' ∧ d = d' ∧ m = m' := by
  induction h generalizing p' with
  | self =>
    cases h' with
    | self =>
      obtain ⟨rfl, -, -⟩ := hmember.unique hmember' (congrArg (· ++ []) hplace)
      exact ⟨rfl, rfl, rfl⟩
    | @member _ _ _ m₁ p₁ _ hfirst _ =>
      have hplace : m ++ [] = m₁ ++ (p₁ ++ m') := by simpa using hplace
      obtain ⟨-, -, hnil⟩ := hmember.unique hfirst hplace
      exact absurd (List.append_eq_nil_iff.mp hnil.symm).2 hmember'.ne_nil
  | @member _ _ _ m₁ p₁ _ hfirst _ ih =>
    cases h' with
    | self =>
      have hplace : m₁ ++ (p₁ ++ m) = m' ++ [] := by simpa using hplace
      obtain ⟨-, -, hnil⟩ := hfirst.unique hmember' hplace
      exact absurd (List.append_eq_nil_iff.mp hnil).2 hmember.ne_nil
    | @member _ _ _ m₂ p₂ _ hsecond hrest =>
      rw [List.append_assoc, List.append_assoc] at hplace
      obtain ⟨rfl, rfl, hplace⟩ := hfirst.unique hsecond hplace
      obtain ⟨rfl, rfl, rfl⟩ := ih hrest hmember hplace
      exact ⟨rfl, rfl, rfl⟩

/-- The way to a node that is no error leads over errors only. -/
theorem Searched.unique (h : Searched root q t) (h' : Searched root q' t') (ht : t.kind ≠ .error)
    (ht' : t'.kind ≠ .error) (hplace : q ++ r = q' ++ r') : q = q' ∧ t = t' ∧ r = r' := by
  induction h generalizing q' with
  | child hc =>
    cases h' with
    | child hc' =>
      obtain ⟨rfl, rfl⟩ := List.cons.inj hplace
      exact ⟨rfl, Option.some.inj (hc.symm.trans hc'), rfl⟩
    | error he hkind _ =>
      obtain ⟨rfl, -⟩ := List.cons.inj hplace
      cases Option.some.inj (hc.symm.trans he)
      exact absurd hkind ht
  | error he hkind _ ih =>
    cases h' with
    | child hc' =>
      obtain ⟨rfl, -⟩ := List.cons.inj hplace
      cases Option.some.inj (hc'.symm.trans he)
      exact absurd hkind ht'
    | error he' _ hbelow =>
      obtain ⟨rfl, hrest⟩ := List.cons.inj hplace
      cases Option.some.inj (he.symm.trans he')
      obtain ⟨rfl, rfl, rfl⟩ := ih hbelow ht hrest
      exact ⟨rfl, rfl, rfl⟩

theorem Announces.ne_error (h : Announces t) : t.kind ≠ .error := by
  intro hkind
  rw [Announces, hkind] at h
  cases h

/-- The declarations around a declaration are those on the way to it. -/
theorem Nested.ok_around {e : Tree} (h : Nested ok t p d) (he : Nested Announces t q e) (hq : q <+: p) :
    ok e := by
  induction he generalizing p with
  | self => exact h.ok_start
  | member _ hmember _ ih =>
    obtain ⟨r, hr⟩ := hq
    rw [List.append_assoc] at hr
    cases h with
    | self => exact absurd (List.append_eq_nil_iff.mp hr).1 hmember.ne_nil
    | member _ hmember' hrest =>
      obtain ⟨rfl, rfl, hr⟩ := hmember.unique hmember' hr
      exact ih hrest ⟨r, hr⟩

theorem nested_sound_iff : Nested Sound t p d ↔
    Nested Announces t p d ∧ ∀ q e, q <+: p → Nested Announces t q e → Sound e := by
  constructor
  · intro h
    exact ⟨h.mono fun _ => Sound.declares, fun q e hq he => h.ok_around he hq⟩
  · rintro ⟨h, hsound⟩
    induction h with
    | self ht => exact .self (hsound [] _ List.prefix_rfl (.self ht))
    | @member t c _ m p ht hmember _ ih =>
      refine .member (hsound [] t List.nil_prefix (.self ht)) hmember (ih fun q e hq he => ?_)
      exact hsound (m ++ q) e ((List.prefix_append_right_inj m).mpr hq) (.member ht hmember he)

/-- A declaration that is not sound hides itself and all that is in it, and nothing else. -/
theorem visible_iff : Visible unit p d ↔
    Declared unit p d ∧ ∀ q e, q <+: p → Declared unit q e → Sound e := by
  constructor
  · rintro ⟨q, top, r, hsearched, hnested, rfl⟩
    obtain ⟨hdeclared, hsound⟩ := nested_sound_iff.mp hnested
    refine ⟨⟨q, top, r, hsearched, hdeclared, rfl⟩, ?_⟩
    rintro _ e ⟨rest, hrest⟩ ⟨q', top', r', hsearched', hnested', rfl⟩
    rw [List.append_assoc] at hrest
    obtain ⟨rfl, rfl, hrest⟩ := hsearched'.unique hsearched hnested'.ok_start.ne_error
      hdeclared.ok_start.ne_error hrest
    exact hsound r' e ⟨rest, hrest⟩ hnested'
  · rintro ⟨⟨q, top, r, hsearched, hnested, rfl⟩, hsound⟩
    refine ⟨q, top, r, hsearched, nested_sound_iff.mpr ⟨hnested, fun r' e hr' he => ?_⟩, rfl⟩
    exact hsound (q ++ r') e ((List.prefix_append_right_inj q).mpr hr') ⟨q, top, r', hsearched, he, rfl⟩

/-- A node is a member of one visible declaration at most. -/
theorem Visible.unique (h : Visible unit p d) (h' : Visible unit p' d') (hmember : DirectMember d m c)
    (hmember' : DirectMember d' m' c') (hplace : p ++ m = p' ++ m') : p = p' ∧ d = d' ∧ m = m' := by
  obtain ⟨q, top, r, hsearched, hnested, rfl⟩ := h
  obtain ⟨q', top', r', hsearched', hnested', rfl⟩ := h'
  rw [List.append_assoc, List.append_assoc] at hplace
  obtain ⟨rfl, rfl, hplace⟩ := hsearched.unique hsearched' hnested.ok_start.declares.ne_error
    hnested'.ok_start.declares.ne_error hplace
  obtain ⟨rfl, rfl, rfl⟩ := hnested.unique hnested' hmember hmember' hplace
  exact ⟨rfl, rfl, rfl⟩

end Seen

/-! ## What records tell -/

/-- A declarator with a name in a field declaration that is well formed. -/
structure IsField (m d : Tree) : Prop where
  kind : m.kind = .fieldDeclaration
  clean : CleanHeader m
  typed : (m.child? .type).isSome
  part : d.part? = some .declarator
  named : (partText? d .name).isSome

/-- A method that is well formed and not called like the type in which it stands. -/
structure IsOperation (t m : Tree) : Prop where
  kind : m.kind = .methodDeclaration
  clean : CleanHeader m
  named : (partText? m .name).isSome
  typed : (m.child? .type).isSome
  parameters : (m.child? .parameters).isSome
  renamed : partText? m .name ≠ partText? t .name

/-- A constant with a name. -/
structure IsLiteral (m : Tree) : Prop where
  kind : m.kind = .enumConstant
  named : (partText? m .name).isSome

/-- The fields in a declaration, each a declarator in a member. -/
def FieldOf (t : Tree) (p : List Nat) (x : Tree × Tree) : Prop :=
  ∃ m i, p = m ++ [i] ∧ DirectMember t m x.1 ∧ x.1.children[i]? = some x.2 ∧ IsField x.1 x.2

/-- The operations among the members of a declaration. -/
def OperationOf (t : Tree) (p : List Nat) (m : Tree) : Prop := DirectMember t p m ∧ IsOperation t m

/-- The constants among the members of a declaration. -/
def LiteralOf (t : Tree) (p : List Nat) (m : Tree) : Prop := DirectMember t p m ∧ IsLiteral m

/-- What a field tells of its declarator and the declaration around it. -/
structure TellsField (owner : ClassifierKind) (x : Tree × Tree) (f : Field) : Prop where
  name : partText? x.2 .name = some f.name
  typeName : ∃ type, x.1.child? .type = some type ∧ f.typeName = declaredType (normalized type) x.2
  defaultValue : f.defaultValue = (x.2.child? .value).map fun v => Text.strip v.string
  visibility : f.visibility = visibility (modifierWords x.1) (owner == .interface)
  isStatic : f.isStatic = (owner == .interface || (modifierWords x.1).contains "static")
  isFinal : f.isFinal = (owner == .interface || (modifierWords x.1).contains "final")

/-- What a parameter tells of its node. One for any number of arguments has modifiers, its type and further
parts, of which the last is its declarator. -/
inductive TellsParameter (t : Tree) (p : Parameter) : Prop where
  | one {type : Tree} (kind : t.kind = .parameter) (typed : t.child? .type = some type)
      (name : partText? t .name = some p.name)
      (typeName : p.typeName =
        TypeText.normalize (type.string ++ ((t.child? .dimensions).map (·.string)).getD ""))
      (defaultValue : p.defaultValue = none)
  | many {type declarator : Tree} {between : List Tree} (kind : t.kind = .variableParameter)
      (parts : (t.namedChildren.filter fun c => c.kind != .modifiers) = type :: (between ++ [declarator]))
      (declares : declarator.kind = .declarator) (name : partText? declarator .name = some p.name)
      (typeName : p.typeName = normalized type ++ "...") (defaultValue : p.defaultValue = none)

/-- The nodes in a list of parameters that tell one. -/
def ParameterOf (list : Tree) (p : List Nat) (t : Tree) : Prop :=
  ∃ i, p = [i] ∧ list.namedChildren[i]? = some t ∧ ∃ parameter, TellsParameter t parameter

/-- What an operation tells of its method. -/
structure TellsOperation (owner : ClassifierKind) (m : Tree) (op : Operation) : Prop where
  name : partText? m .name = some op.name
  returnType : ∃ type, m.child? .type = some type ∧
    op.returnType = if normalized type = "void" then none else some (normalized type)
  parameters : ∃ list, m.child? .parameters = some list ∧
    Enumerates (ParameterOf list) TellsParameter op.parameters
  visibility : op.visibility = visibility (modifierWords m) (owner == .interface)
  isStatic : op.isStatic = (modifierWords m).contains "static"
  isAbstract : op.isAbstract = (modifierWords m).contains "abstract"
  isFinal : op.isFinal = (modifierWords m).contains "final"

/-- What a record tells of a declaration. -/
structure Reports (namespaceName : String) (t : Tree) (r : TypeRecord) : Prop where
  name : partText? t .name = some r.name
  kind : typeKind? t.kind = some r.kind
  namespaceName : r.namespaceName = namespaceName
  line : r.startLine = t.line
  fields : Enumerates (FieldOf t) (TellsField r.kind) r.fields
  operations : Enumerates (OperationOf t) (TellsOperation r.kind) r.operations
  literals : Enumerates (LiteralOf t) (fun m text => partText? m .name = some text) r.literals

section Reports

variable {t m : Tree} {owner kind : ClassifierKind} {name namespaceName : String}

/-- At most one thing is told of each member. -/
theorem Enumerates.members_filterMap {β : Type} {place : Tree → Prop} {tells : Tree → β → Prop}
    {f : Tree → Option β} (hsome : ∀ m x, f m = some x → place m ∧ tells m x)
    (hnone : ∀ m, f m = none → ¬ place m) :
    Enumerates (fun p m => DirectMember t p m ∧ place m) tells ((bodyNodes t).filterMap f) := by
  rw [List.filterMap_eq_flatMap_toList]
  refine (members fun m _ => ofOption (hsome m) (hnone m)).congr fun p a => ?_
  constructor
  · rintro ⟨q, c, _, hmember, rfl, rfl, rfl, hplace⟩
    rw [List.append_nil]
    exact ⟨hmember, hplace⟩
  · rintro ⟨hmember, hplace⟩
    exact ⟨p, a, [], hmember, (List.append_nil p).symm, rfl, rfl, hplace⟩

/-- A declaration of fields without a clean header or a type tells nothing. -/
theorem fields_eq_nil (h : ¬ (CleanHeader m ∧ (m.child? .type).isSome)) : fields owner m = [] := by
  rw [fields]
  split
  · rfl
  · rename_i herror
    rw [Bool.not_eq_true, headerHasError_eq_false] at herror
    cases htype : m.child? .type with
    | none => rfl
    | some type => exact absurd ⟨herror, by rw [htype]; rfl⟩ h

/-- A declaration of fields tells its declarators with names. -/
theorem enumerates_declarators (hkind : m.kind = .fieldDeclaration) (hclean : CleanHeader m)
    (htyped : (m.child? .type).isSome) :
    Enumerates (InChildren m.children fun d p x => p = [] ∧ x = (m, d) ∧ IsField m d)
      (TellsField owner) (fields owner m) := by
  obtain ⟨type, htype⟩ := Option.isSome_iff_exists.mp htyped
  rw [fields, headerHasError_eq_false.mpr hclean, if_neg Bool.false_ne_true, htype]
  dsimp only
  rw [Tree.childrenAs, List.filterMap_filter, List.filterMap_eq_flatMap_toList]
  refine .children fun d _ => .ofOption (fun f hf => ?_) fun hf hfield => ?_
  · split at hf
    · rename_i hpart
      obtain ⟨name, hname, rfl⟩ := Option.map_eq_some_iff.mp hf
      refine ⟨⟨hkind, hclean, htyped, by simpa using hpart, by rw [hname]; rfl⟩, ?_⟩
      exact ⟨hname, ⟨type, htype, rfl⟩, rfl, rfl, rfl, rfl⟩
    · cases hf
  · have hnamed := hfield.named
    rw [hfield.part, if_pos (beq_self_eq_true _), Option.map_eq_none_iff] at hf
    rw [hf] at hnamed
    cases hnamed

theorem enumerates_memberFields (t : Tree) (owner : ClassifierKind) :
    Enumerates (FieldOf t) (TellsField owner) (memberFields owner (bodyNodes t)) := by
  have hmembers : Enumerates (InMembers t fun m => InChildren m.children fun d p x =>
      p = [] ∧ x = (m, d) ∧ IsField m d) (TellsField owner) (memberFields owner (bodyNodes t)) := by
    refine .members fun m _ => ?_
    by_cases hfield : m.kind = .fieldDeclaration ∧ CleanHeader m ∧ (m.child? .type).isSome
    · rw [if_pos (beq_iff_eq.mpr hfield.1)]
      exact enumerates_declarators hfield.1 hfield.2.1 hfield.2.2
    · have hnone : (if m.kind == .fieldDeclaration then fields owner m else []) = [] := by
        split
        · rename_i hkind
          exact fields_eq_nil fun hboth => hfield ⟨beq_iff_eq.mp hkind, hboth⟩
        · rfl
      rw [hnone]
      refine .nil fun p x => ?_
      rintro ⟨i, d, q, -, -, -, -, his⟩
      exact hfield ⟨his.kind, his.clean, his.typed⟩
  refine hmembers.congr fun p x => ?_
  constructor
  · rintro ⟨q, m, _, hmember, rfl, i, d, _, hd, rfl, rfl, rfl, hfield⟩
    exact ⟨q, i, rfl, hmember, hd, hfield⟩
  · rintro ⟨q, i, rfl, hmember, hd, hfield⟩
    exact ⟨q, x.1, [i], hmember, rfl, i, x.2, [], hd, rfl, rfl, rfl, hfield⟩

theorem plainParameter?_eq_some {p : Parameter} : plainParameter? t = some p ↔
    ∃ type, t.child? .type = some type ∧ partText? t .name = some p.name ∧
      p.typeName = TypeText.normalize (type.string ++ ((t.child? .dimensions).map (·.string)).getD "") ∧
      p.defaultValue = none := by
  simp only [plainParameter?, Option.bind_eq_bind, Option.bind_eq_some_iff]
  constructor
  · rintro ⟨type, htype, name, hname, hp⟩
    cases hp
    exact ⟨type, htype, hname, rfl, rfl⟩
  · rintro ⟨type, htype, hname, htypeName, hdefault⟩
    refine ⟨type, htype, p.name, hname, ?_⟩
    rw [← htypeName, ← hdefault]
    rfl

/-- A list of two or more begins and ends with these. -/
theorem bounds_iff {α : Type} {xs : List α} {first last : α} :
    xs.head? = some first ∧ xs.getLast? = some last ∧ ¬ xs.length < 2 ↔
      ∃ between, xs = first :: (between ++ [last]) := by
  constructor
  · rintro ⟨hfirst, hlast, hlength⟩
    obtain ⟨front, rfl⟩ := List.getLast?_eq_some_iff.mp hlast
    cases front with
    | nil => exact absurd Nat.one_lt_two hlength
    | cons head between =>
      cases hfirst
      exact ⟨between, rfl⟩
  · rintro ⟨between, rfl⟩
    exact ⟨rfl, by rw [← List.cons_append, List.getLast?_concat], by simp⟩

theorem variableParameter?_eq_some {p : Parameter} : variableParameter? t = some p ↔
    ∃ type between declarator,
      (t.namedChildren.filter fun c => c.kind != .modifiers) = type :: (between ++ [declarator]) ∧
      declarator.kind = .declarator ∧ partText? declarator .name = some p.name ∧
      p.typeName = normalized type ++ "..." ∧ p.defaultValue = none := by
  simp only [variableParameter?, Option.bind_eq_bind, Option.bind_eq_some_iff]
  constructor
  · rintro ⟨type, htype, declarator, hdeclarator, hp⟩
    rw [Option.ite_none_left_eq_some, Option.bind_eq_some_iff] at hp
    obtain ⟨hshape, name, hname, hp⟩ := hp
    cases hp
    simp only [Bool.or_eq_true, decide_eq_true_eq, bne_iff_ne, not_or, not_not] at hshape
    obtain ⟨between, hparts⟩ := bounds_iff.mp ⟨htype, hdeclarator, hshape.1⟩
    exact ⟨type, between, declarator, hparts, hshape.2, hname, rfl, rfl⟩
  · rintro ⟨type, between, declarator, hparts, hkind, hname, htypeName, hdefault⟩
    obtain ⟨htype, hdeclarator, hlength⟩ := bounds_iff.mpr ⟨between, hparts⟩
    refine ⟨type, htype, declarator, hdeclarator, ?_⟩
    rw [Option.ite_none_left_eq_some, Option.bind_eq_some_iff]
    refine ⟨by simp [hlength, hkind], p.name, hname, ?_⟩
    rw [← htypeName, ← hdefault]
    rfl

theorem parameter?_eq_some {p : Parameter} : parameter? t = some p ↔ TellsParameter t p := by
  rw [parameter?]
  constructor
  · intro h
    split at h
    · rename_i hkind
      obtain ⟨type, htype, hname, htypeName, hdefault⟩ := plainParameter?_eq_some.mp h
      exact .one hkind htype hname htypeName hdefault
    · rename_i hkind
      obtain ⟨type, between, declarator, hparts, hdeclares, hname, htypeName, hdefault⟩ :=
        variableParameter?_eq_some.mp h
      exact .many hkind hparts hdeclares hname htypeName hdefault
    · cases h
  · intro h
    cases h with
    | one hkind htype hname htypeName hdefault =>
      rw [hkind]
      exact plainParameter?_eq_some.mpr ⟨_, htype, hname, htypeName, hdefault⟩
    | many hkind hparts hdeclares hname htypeName hdefault =>
      rw [hkind]
      exact variableParameter?_eq_some.mpr ⟨_, _, _, hparts, hdeclares, hname, htypeName, hdefault⟩

/-- The parameters among the nodes of a list, in their order. -/
theorem enumerates_parameters (list : Tree) :
    Enumerates (ParameterOf list) TellsParameter (list.namedChildren.filterMap parameter?) := by
  rw [List.filterMap_eq_flatMap_toList]
  have hnodes : Enumerates (InChildren list.namedChildren fun t p a =>
      p = [] ∧ a = t ∧ ∃ parameter, TellsParameter t parameter) TellsParameter
      (list.namedChildren.flatMap fun t => (parameter? t).toList) := by
    refine .children fun t _ => .ofOption (fun p hp => ?_) fun hnone hgood => ?_
    · exact ⟨⟨p, parameter?_eq_some.mp hp⟩, parameter?_eq_some.mp hp⟩
    · obtain ⟨p, hp⟩ := hgood
      rw [parameter?_eq_some.mpr hp] at hnone
      cases hnone
  refine hnodes.congr fun p t => ?_
  · constructor
    · rintro ⟨i, _, _, hi, rfl, rfl, rfl, hgood⟩
      exact ⟨i, rfl, hi, hgood⟩
    · rintro ⟨i, rfl, hi, hgood⟩
      exact ⟨i, t, [], hi, rfl, rfl, rfl, hgood⟩

theorem operation?_tells {op : Operation} (h : operation? owner m = some op) :
    CleanHeader m ∧ TellsOperation owner m op := by
  rw [operation?] at h
  split at h
  · cases h
  · rename_i herror
    rw [Bool.not_eq_true, headerHasError_eq_false] at herror
    simp only [Option.bind_eq_bind, Option.bind_eq_some_iff] at h
    obtain ⟨name, hname, type, htype, list, hlist, hop⟩ := h
    cases hop
    refine ⟨herror, hname, ⟨type, htype, ?_⟩, ⟨list, hlist, enumerates_parameters list⟩, rfl, rfl, rfl, rfl⟩
    simp only [beq_iff_eq]

theorem IsOperation.exists_operation (h : IsOperation t m) (owner : ClassifierKind) :
    ∃ op, operation? owner m = some op := by
  obtain ⟨name, hname⟩ := Option.isSome_iff_exists.mp h.named
  obtain ⟨type, htype⟩ := Option.isSome_iff_exists.mp h.typed
  obtain ⟨params, hparams⟩ := Option.isSome_iff_exists.mp h.parameters
  rw [operation?, headerHasError_eq_false.mpr h.clean, hname, htype, hparams]
  exact ⟨_, rfl⟩

theorem enumerates_memberOperations (hname : partText? t .name = some name) :
    Enumerates (OperationOf t) (TellsOperation owner) (memberOperations owner name (bodyNodes t)) := by
  rw [memberOperations, List.filter_filterMap]
  refine .members_filterMap (fun m op hop => ?_) fun m hnone his => ?_
  · obtain ⟨hop, hne⟩ := Option.filter_eq_some_iff.mp hop
    split at hop
    · rename_i hkind
      obtain ⟨hclean, htells⟩ := operation?_tells hop
      obtain ⟨type, htype, -⟩ := htells.returnType
      obtain ⟨list, hlist, -⟩ := htells.parameters
      refine ⟨⟨beq_iff_eq.mp hkind, hclean, by rw [htells.name]; rfl, by rw [htype]; rfl,
        by rw [hlist]; rfl, ?_⟩, htells⟩
      rw [htells.name, hname]
      simpa using hne
    · cases hop
  · obtain ⟨op, hop⟩ := his.exists_operation owner
    have hne := his.renamed
    rw [(operation?_tells hop).2.name, hname] at hne
    rw [his.kind, if_pos (beq_self_eq_true _), hop, Option.filter_eq_none_iff] at hnone
    exact hnone op rfl (by simpa using hne)

theorem enumerates_memberLiterals (t : Tree) :
    Enumerates (LiteralOf t) (fun m text => partText? m .name = some text)
      (memberLiterals (bodyNodes t)) := by
  refine .members_filterMap (fun m text htext => ?_) fun m hnone his => ?_
  · split at htext
    · rename_i hkind
      exact ⟨⟨beq_iff_eq.mp hkind, by rw [htext]; rfl⟩, htext⟩
    · cases htext
  · have hnamed := his.named
    rw [his.kind, if_pos (beq_self_eq_true _)] at hnone
    rw [hnone] at hnamed
    cases hnamed

theorem reports_record (hkind : typeKind? t.kind = some kind) (hname : partText? t .name = some name) :
    Reports namespaceName t (record kind name namespaceName t) :=
  ⟨hname, hkind, rfl, rfl, enumerates_memberFields t kind, enumerates_memberOperations hname,
    enumerates_memberLiterals t⟩

theorem recordsOf_unsound (h : ¬ Sound t) : recordsOf namespaceName t = [] := by
  rw [recordsOf_eq]
  split
  · rename_i kind name hkind hname
    split
    · rfl
    · rename_i herror
      rw [Bool.not_eq_true, headerHasError_eq_false] at herror
      exact absurd ⟨by rw [Announces, hkind]; rfl, by rw [hname]; rfl, herror⟩ h
  · rfl

/-- The records of a declaration are those of the sound ones in it. -/
theorem enumerates_recordsOf (namespaceName : String) (t : Tree) :
    Enumerates (Nested Sound t) (Reports namespaceName) (recordsOf namespaceName t) := by
  by_cases hsound : Sound t
  · rw [recordsOf_eq]
    obtain ⟨kind, hkind⟩ := Option.isSome_iff_exists.mp hsound.declares
    obtain ⟨name, hname⟩ := Option.isSome_iff_exists.mp hsound.named
    rw [hkind, hname]
    dsimp only
    rw [headerHasError_eq_false.mpr hsound.clean, if_neg Bool.false_ne_true]
    have hmembers : Enumerates (InMembers t (Nested Sound)) (Reports namespaceName)
        ((bodyNodes t).flatMap (recordsOf namespaceName)) := .members fun m hm =>
      have := sizeOf_lt_of_mem_bodyNodes hm
      enumerates_recordsOf namespaceName m
    refine (hmembers.cons (reports_record hkind hname) ?_).congr fun p d => ?_
    · rintro _ d ⟨m, c, q, hmember, rfl, -⟩ hnil
      exact hmember.ne_nil (List.append_eq_nil_iff.mp hnil).1
    · constructor
      · rintro (⟨rfl, rfl⟩ | ⟨m, c, q, hmember, rfl, hnested⟩)
        · exact .self hsound
        · exact .member hsound hmember hnested
      · intro hnested
        cases hnested with
        | self => exact .inl ⟨rfl, rfl⟩
        | member _ hmember hrest => exact .inr ⟨_, _, _, hmember, rfl, hrest⟩
  · rw [recordsOf_unsound hsound]
    exact .nil fun p d hnested => hsound hnested.ok_start
termination_by sizeOf t

/-! ## The records of a unit -/

/-- What is found in a root is found in one of its children. -/
theorem visible_iff_inChildren {root d : Tree} {p : List Nat} : Visible root p d ↔
    InChildren root.children (fun c q d => c.kind = .error ∧ Visible c q d ∨ Nested Sound c q d) p d := by
  constructor
  · rintro ⟨_, top, r, hsearched, hnested, rfl⟩
    cases hsearched with
    | child hc => exact ⟨_, _, r, hc, rfl, .inr hnested⟩
    | error he hkind hbelow => exact ⟨_, _, _, he, rfl, .inl ⟨hkind, _, top, r, hbelow, hnested, rfl⟩⟩
  · rintro ⟨i, c, _, hc, rfl, ⟨hkind, q, top, r, hbelow, hnested, rfl⟩ | hnested⟩
    · exact ⟨i :: q, top, r, .error hc hkind hbelow, hnested, rfl⟩
    · exact ⟨[i], c, _, .child hc, hnested, rfl⟩

/-- The records among the children of a root are those of the visible declarations in it. -/
theorem enumerates_collect (namespaceName : String) (root : Tree) :
    Enumerates (Visible root) (Reports namespaceName) (root.children.flatMap (collect namespaceName)) := by
  refine Enumerates.congr (.children fun c hc => ?_) fun p d => visible_iff_inChildren.symm
  rw [collect_eq]
  by_cases hkind : c.kind = .error
  · have := sizeOf_lt_of_mem_children hc
    rw [if_pos (beq_iff_eq.mpr hkind)]
    refine (enumerates_collect namespaceName c).congr fun q d => ?_
    constructor
    · exact fun hvisible => .inl ⟨hkind, hvisible⟩
    · rintro (⟨-, hvisible⟩ | hnested)
      · exact hvisible
      · exact absurd hkind hnested.ok_start.declares.ne_error
  · rw [if_neg (mt beq_iff_eq.mp hkind)]
    refine (enumerates_recordsOf namespaceName c).congr fun q d => ?_
    exact ⟨.inr, fun h => h.resolve_left fun herror => hkind herror.1⟩
termination_by sizeOf root

end Reports

/-- The records of a tree are those of its visible declarations, in the order of their places, and each has
the fields, operations and constants of its own body in their order. A declaration is visible if it and all
declarations around it are sound. What is a member of one visible declaration is a member of no other. -/
theorem ofTree_visible (unit : Tree) (hint : String) :
    Enumerates (Visible unit)
        (Reports (if (packageName unit).isEmpty then hint else packageName unit)) (ofTree unit hint) ∧
      (∀ p t, Visible unit p t ↔ Declared unit p t ∧ ∀ q e, q <+: p → Declared unit q e → Sound e) ∧
      ∀ p p' t t' m m' c c', Visible unit p t → Visible unit p' t' → DirectMember t m c →
        DirectMember t' m' c' → p ++ m = p' ++ m' → p = p' ∧ t = t' ∧ m = m' :=
  ⟨enumerates_collect _ unit, fun _ _ => visible_iff,
    fun _ _ _ _ _ _ _ _ h h' hmember hmember' hplace => h.unique h' hmember hmember' hplace⟩

end ClassAtlas.Java
