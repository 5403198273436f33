import ClassAtlas.Proofs.InferredEdges
import ClassAtlas.Proofs.NamesInTypes
import Mathlib.Data.List.DropRight

/-! # Which supertype a class type names

A class type is a row of identifiers between points, each with type arguments or without, and it names
what the last identifier stands for. A lookup cuts it at the first angle bracket. What is left is again
a class type, and a classifier found for it bears the last name that is left: the cut is harmless behind
the last identifier, and elsewhere the classifier found is the one around the one that was named. -/

namespace ClassAtlas.Java

open TypeNames (Plain)

/-- An identifier in a class type, with the blanks around it and the type arguments behind it. What
nests in the arguments is left open. -/
structure TypePart where
  name : String
  before : List Char := []
  after : List Char := []
  arguments : List Char := []
  named : name ≠ ""
  plain : ∀ c ∈ name.toList, Plain c ∧ c ≠ '.'
  blank : ∀ c ∈ before ++ after, Text.isBlank c = true
  opened : ∀ c ∈ arguments.head?, c = '<'

/-- A class type from its outermost identifier to its innermost. -/
inductive ClassType where
  | last (part : TypePart)
  | within (part : TypePart) (rest : ClassType)

theorem plain_of_word {name : String} (h : name.toList.all TypeNames.isPart = true) :
    ∀ c ∈ name.toList, Plain c ∧ c ≠ '.' := by
  intro c hc
  have hpart := List.all_eq_true.mp h c hc
  refine ⟨TypeNames.plain_of_isPart hpart, ?_⟩
  intro hpoint
  rw [hpoint, TypeNames.point_isPart] at hpart
  cases hpart

/-- The identifier with its blanks. -/
def TypePart.body (p : TypePart) : List Char := p.before ++ p.name.toList ++ p.after

namespace ClassType

def chars : ClassType → List Char
  | last p => p.body ++ p.arguments
  | within p rest => p.body ++ p.arguments ++ '.' :: rest.chars

def text (t : ClassType) : String := String.ofList t.chars

/-- The class type without its type arguments. -/
def names : ClassType → List Char
  | last p => p.body
  | within p rest => p.body ++ '.' :: rest.names

/-- The name of what the class type stands for. -/
def name : ClassType → String
  | last p => p.name
  | within _ rest => rest.name

/-- The class type up to the first identifier with type arguments. -/
def cut : ClassType → ClassType
  | last p => last p
  | within p rest => if p.arguments.isEmpty then within p rest.cut else last p

end ClassType

/-! ## The text of a class type -/

section Chars

variable {p : TypePart} {t : ClassType} {c : Char} {cs : List Char}

theorem TypePart.mem_body (h : c ∈ p.body) : c ≠ '<' ∧ c ≠ '[' ∧ c ≠ '.' := by
  have hcases : (c ∈ p.before ++ p.after) ∨ c ∈ p.name.toList := by
    simp only [TypePart.body, List.mem_append] at h ⊢
    tauto
  rcases hcases with h | h
  · have hblank := p.blank c h
    refine ⟨?_, ?_, ?_⟩ <;> (rintro rfl; exact absurd hblank (by decide))
  · obtain ⟨hplain, hpoint⟩ := p.plain c h
    exact ⟨hplain.angle, hplain.bracket, hpoint⟩

theorem TypePart.point_notMem_name (p : TypePart) : '.' ∉ p.name.toList :=
  fun hmem => (p.plain '.' hmem).2 rfl

theorem TypePart.point_notMem_before (p : TypePart) : '.' ∉ p.before ++ p.name.toList := by
  intro hmem
  have hbody : '.' ∈ p.body := List.mem_append_left _ hmem
  exact (p.mem_body hbody).2.2 rfl

theorem TypePart.body_ne_nil : p.body ≠ [] := by
  simp [TypePart.body, p.named]

theorem TypePart.takeWhile_body (h : p.arguments.isEmpty = false) :
    (p.body ++ p.arguments ++ cs).takeWhile (· != '<') = p.body := by
  have hbody : ∀ c ∈ p.body, (c != '<') = true := fun c hc => bne_iff_ne.mpr (p.mem_body hc).1
  cases harguments : p.arguments with
  | nil => simp [harguments] at h
  | cons c rest =>
    obtain rfl : c = '<' := p.opened c (by simp [harguments])
    rw [List.append_assoc, List.takeWhile_append_of_pos hbody, List.cons_append,
      List.takeWhile_cons_of_neg (by decide), List.append_nil]

/-- Before its first angle bracket a class type reads like the cut one. -/
theorem ClassType.takeWhile_chars (t : ClassType) : t.chars.takeWhile (· != '<') = t.cut.names := by
  induction t with
  | last p =>
    rw [chars, cut, names]
    cases harguments : p.arguments.isEmpty with
    | true =>
      rw [List.isEmpty_iff.mp harguments, List.append_nil]
      exact List.takeWhile_eq_self_iff.mpr fun c hc => bne_iff_ne.mpr (p.mem_body hc).1
    | false =>
      have hcut : (p.body ++ p.arguments ++ []).takeWhile (· != '<') = p.body :=
        p.takeWhile_body harguments
      rwa [List.append_nil] at hcut
  | within p rest ih =>
    rw [chars, cut]
    cases harguments : p.arguments.isEmpty with
    | true =>
      have hbody : ∀ c ∈ p.body, (c != '<') = true := fun c hc => bne_iff_ne.mpr (p.mem_body hc).1
      rw [List.isEmpty_iff.mp harguments, List.append_nil, List.takeWhile_append_of_pos hbody,
        List.takeWhile_cons_of_pos (by decide), ih, if_pos rfl, names]
    | false => rw [if_neg Bool.false_ne_true, names, p.takeWhile_body harguments]

theorem ClassType.bracket_of_mem_names (h : c ∈ t.names) : c ≠ '[' := by
  induction t with
  | last p => exact (p.mem_body h).2.1
  | within p rest ih =>
    rcases List.mem_append.mp h with h | h
    · exact (p.mem_body h).2.1
    · rcases List.mem_cons.mp h with rfl | h
      · decide
      · exact ih h

theorem dropPoints_append (h : ∀ c ∈ cs, c ≠ '.') (rest : List Char) :
    Inference.dropPoints (cs ++ rest) = cs ++ Inference.dropPoints rest := by
  induction cs with
  | nil => rfl
  | cons c cs ih =>
    obtain ⟨hc, hcs⟩ := List.forall_mem_cons.mp h
    rw [List.cons_append, TypeNames.dropPoints_cons fun hpoint => absurd hpoint hc, ih hcs,
      List.cons_append]

theorem ClassType.head?_names : t.names.head? ≠ some '.' := by
  have hbody : ∀ p : TypePart, ∀ rest, (p.body ++ rest).head? ≠ some '.' := by
    intro p rest hhead
    rw [List.head?_append_of_ne_nil _ p.body_ne_nil] at hhead
    exact (p.mem_body (List.mem_of_head? hhead)).2.2 rfl
  cases t with
  | last p => simpa [names] using hbody p []
  | within p rest => exact hbody p _

/-- No points of a class type follow each other. -/
theorem ClassType.dropPoints_names : Inference.dropPoints t.names = t.names := by
  induction t with
  | last p =>
    simpa [names, Inference.dropPoints] using dropPoints_append (fun c hc => (p.mem_body hc).2.2) []
  | within p rest ih =>
    rw [names, dropPoints_append fun c hc => (p.mem_body hc).2.2,
      TypeNames.dropPoints_cons fun _ => rest.head?_names, ih]

/-! ## Blanks -/

theorem dropWhile_append_stop {α : Type} {p : α → Bool} {x : α} (xs ys : List α) (h : p x = false) :
    (xs ++ x :: ys).dropWhile p = xs.dropWhile p ++ x :: ys := by
  rw [List.dropWhile_append, List.dropWhile_cons_of_neg (Bool.eq_false_iff.mp h)]
  split
  · rename_i hnone
    rw [List.isEmpty_iff.mp hnone, List.nil_append]
  · rfl

theorem rdropWhile_append_stop {α : Type} {p : α → Bool} {x : α} (xs ys : List α) (h : p x = false) :
    (xs ++ x :: ys).rdropWhile p = xs ++ x :: ys.rdropWhile p := by
  have hsplit : (xs ++ x :: ys).reverse = ys.reverse ++ x :: xs.reverse := by simp
  rw [List.rdropWhile, hsplit, dropWhile_append_stop _ _ h, List.rdropWhile]
  simp

theorem TypePart.isBlank_of_mem_name (h : c ∈ p.name.toList) : Text.isBlank c = false :=
  (p.plain c h).1.blank

theorem TypePart.dropWhile_blanks (p : TypePart) (rest : List Char) :
    (p.before ++ p.name.toList ++ rest).dropWhile Text.isBlank = p.name.toList ++ rest := by
  obtain ⟨c, cs, hname⟩ := List.exists_cons_of_ne_nil (l := p.name.toList) (by simp [p.named])
  have hc : Text.isBlank c = false := p.isBlank_of_mem_name (by simp [hname])
  have hnone : p.before.dropWhile Text.isBlank = [] :=
    List.dropWhile_eq_nil_iff.mpr fun c hc => p.blank c (List.mem_append_left _ hc)
  rw [hname, List.append_assoc, List.cons_append, dropWhile_append_stop _ _ hc, hnone,
    List.nil_append]

theorem TypePart.rdropWhile_blanks (p : TypePart) (first : List Char)
    (h : ∀ c ∈ cs, Text.isBlank c = true) :
    (first ++ p.name.toList ++ cs).rdropWhile Text.isBlank = first ++ p.name.toList := by
  obtain ⟨start, c, hname⟩ : ∃ start c, p.name.toList = start ++ [c] :=
    ⟨_, _, (List.dropLast_append_getLast (by simp [p.named])).symm⟩
  have hc : Text.isBlank c = false := p.isBlank_of_mem_name (by simp [hname])
  have hnone : cs.rdropWhile Text.isBlank = [] := List.rdropWhile_eq_nil_iff.mpr h
  have hsplit : first ++ p.name.toList ++ cs = (first ++ start) ++ c :: cs := by simp [hname]
  rw [hsplit, rdropWhile_append_stop _ _ hc, hnone, hname, List.append_assoc]

theorem TypePart.stripChars_eq (p : TypePart) (h : ∀ c ∈ cs, Text.isBlank c = true) :
    Text.stripChars (p.before ++ p.name.toList ++ cs) = p.name.toList := by
  have hstrip : Text.stripChars (p.before ++ p.name.toList ++ cs) =
      ((p.before ++ p.name.toList ++ cs).dropWhile Text.isBlank).rdropWhile Text.isBlank := rfl
  rw [hstrip, p.dropWhile_blanks, ← List.nil_append p.name.toList, p.rdropWhile_blanks [] h]

end Chars

end ClassAtlas.Java

namespace ClassAtlas.Inference

open Java (ClassType TypePart)

/-! ## What a class type is looked up as -/

/-- The name of a classifier less what stands before a point in it, and less blanks at its ends. Java's
classifiers have simple names. -/
def simpleName (name : String) : String := Text.strip (String.ofList (lastSegment name.toList))

/-- Whatever the table of classifiers, what a text means is named as the text ends. -/
theorem lastSegment_of_resolve {s : Scope} {owner target : Classifier} {text : String}
    (h : s.resolve owner text = some target) :
    lastSegment target.name.toList = lastSegment (bareName text) := by
  rcases Scope.resolve_cases h with ⟨-, hqualified⟩ | hsimple
  · rw [← hqualified, ClassifierOf.qualifiedName, qualify]
    split
    · rfl
    · have htext : (Label.shown target.namespaceName ++ "." ++ Label.shown target.name).toList =
          target.namespaceName.toList ++ '.' :: target.name.toList := by simp
      rw [htext, lastSegment_behind]
  · rw [(Scope.lookUp_mem hsimple).2, String.toList_ofList,
      lastSegment_eq (point_notMem_lastSegment _)]

section Names

variable {p : TypePart} {t : ClassType} {s : Scope} {c : Classifier} {r : Reference} {e : Edge}

/-- The text of a class type ends in the name that it gives, blanks apart. -/
theorem strip_lastSegment_rdropWhile (t : ClassType) :
    Text.stripChars (lastSegment (t.names.rdropWhile Text.isBlank)) = t.name.toList := by
  induction t with
  | last p =>
    have hafter : ∀ x ∈ p.after, Text.isBlank x = true := fun x hx =>
      p.blank x (List.mem_append_right _ hx)
    have hstrip := p.stripChars_eq (List.forall_mem_nil _)
    rw [List.append_nil] at hstrip
    rw [ClassType.names, TypePart.body, p.rdropWhile_blanks p.before hafter,
      lastSegment_eq p.point_notMem_before, hstrip, ClassType.name]
  | within p rest ih =>
    rw [ClassType.names, Java.rdropWhile_append_stop _ _ (by decide), lastSegment_behind, ih,
      ClassType.name]

theorem strip_lastSegment (t : ClassType) :
    Text.stripChars (lastSegment (Text.stripChars t.names)) = t.name.toList := by
  have hstrip : Text.stripChars t.names =
      (t.names.dropWhile Text.isBlank).rdropWhile Text.isBlank := rfl
  cases t with
  | last p =>
    have hafter : ∀ x ∈ p.after, Text.isBlank x = true := fun x hx =>
      p.blank x (List.mem_append_right _ hx)
    rw [ClassType.names, TypePart.body, p.stripChars_eq hafter, lastSegment_eq p.point_notMem_name,
      stripChars_eq fun x hx => p.isBlank_of_mem_name hx, ClassType.name]
  | within p rest =>
    -- the point keeps the blanks before it and behind it apart
    rw [hstrip, ClassType.names, Java.dropWhile_append_stop _ _ (by decide),
      Java.rdropWhile_append_stop _ _ (by decide), lastSegment_behind, strip_lastSegment_rdropWhile,
      ClassType.name]

/-- A class type is looked up without blanks around it, and up to its first type arguments. -/
theorem bareName_text (t : ClassType) : bareName t.text = Text.stripChars t.cut.names := by
  rw [bareName, ClassType.text, String.toList_ofList, t.takeWhile_chars,
    dropPairs_eq fun x hx => ClassType.bracket_of_mem_names hx, ClassType.dropPoints_names]

theorem simpleName_of_resolve {owner target : Classifier}
    (h : s.resolve owner t.text = some target) : simpleName target.name = t.cut.name := by
  rw [simpleName, Text.strip, String.toList_ofList, lastSegment_of_resolve h, bareName_text,
    strip_lastSegment, String.ofList_toList]

/-- The name that a class type gives is simple. -/
theorem simpleName_name (t : ClassType) : simpleName t.name = t.name := by
  induction t with
  | last p =>
    rw [ClassType.name, simpleName, Text.strip, String.toList_ofList, lastSegment_eq p.point_notMem_name,
      stripChars_eq fun x hx => p.isBlank_of_mem_name hx, String.ofList_toList]
  | within p rest ih => exact ih

/-- An edge called for by a declared supertype leads to a classifier named like the last identifier up
to which the class type has no type arguments. So it leads to one of the name that the class type gives
exactly if the cut left that name, for a classifier whose name is simple. -/
theorem supertype_target_iff (hr : r ∈ supertypes c) (htext : r.text = t.text)
    (he : r.edge? s = some e) :
    e.source = c ∧ (e.kind = .inheritance ∨ e.kind = .implementation) ∧
      simpleName e.target.name = t.cut.name ∧
      (e.target.name = t.name ↔ t.cut.name = t.name ∧ simpleName e.target.name = e.target.name) := by
  obtain ⟨hresolve, howner, -, hkind⟩ := edge?_eq_some.mp he
  have hown : r ∈ ownReferences true c := List.mem_append_left _ (List.mem_append_left _ hr)
  have hsimple : simpleName e.target.name = t.cut.name := simpleName_of_resolve (htext ▸ hresolve)
  refine ⟨howner.symm.trans (owner_of_mem hown), ?_, hsimple, ?_⟩
  · rw [← hkind]
    rcases mem_supertypes.mp hr with ⟨name, -, -, rfl⟩ | ⟨name, -, rfl⟩
    · exact .inl rfl
    · rw [use_kind_listed]
      cases c.kind <;> simp [listedKind]
  · constructor
    · intro hname
      rw [hname, simpleName_name] at hsimple
      exact ⟨hsimple.symm, by rw [hname, simpleName_name]⟩
    · intro hgiven
      obtain ⟨hcut, htarget⟩ := hgiven
      rw [← htarget, hsimple, hcut]

/-- A class extends what is inside another one that has type arguments: its edge leads to the one around
what was named. -/
theorem supertype_target_iff_inside :
    let outer : TypePart := ⟨"Outer", [], [], "<String>".toList, by decide,
      Java.plain_of_word (by decide), List.forall_mem_nil _, by simp⟩
    let inner : TypePart := ⟨"Inner", [], [], [], by decide, Java.plain_of_word (by decide),
      List.forall_mem_nil _, by simp⟩
    let type : ClassType := .within outer (.last inner)
    let around := { bareClass 0 "o" with name := "Outer" }
    let inside := { bareClass 1 "i" with name := "Inner" }
    let sub := { bareClass 2 "s" with name := "Sub", declaredSuperclass := some "Outer<String>.Inner" }
    let s : Scope := ⟨[around, inside, sub], []⟩
    let r : Reference := ⟨sub, "Outer<String>.Inner", .supertype .extends .inheritance⟩
    r ∈ supertypes sub ∧ r.text = type.text ∧ r.edge? s = some ⟨sub, around, .inheritance⟩ ∧
      around.name ≠ type.name := by
  intro outer inner type around inside sub s r
  have hr : r ∈ supertypes sub := List.mem_cons_self
  have htext : r.text = type.text := by decide
  have hbare : bareName r.text = "Outer".toList := by decide
  have hmeans : s.resolve sub r.text = some around := by
    rw [Scope.resolve, Scope.find, hbare]
    rfl
  have hedge : r.edge? s = some ⟨sub, around, .inheritance⟩ :=
    edge?_eq_some.mpr ⟨hmeans, rfl, by decide, rfl⟩
  obtain ⟨-, -, -, hiff⟩ := supertype_target_iff hr htext hedge
  refine ⟨hr, htext, hedge, fun hname => ?_⟩
  exact absurd (hiff.mp hname).1 (by decide)

end Names

end ClassAtlas.Inference
