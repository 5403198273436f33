import ClassAtlas.Proofs.InferredEdges
import ClassAtlas.Proofs.NamesInTypes
import Mathlib.Data.List.Perm.Basic

/-! # Inference in another order of the classifiers

Where names have no points and no two classifiers share name and namespace, a qualified name means one
classifier whatever the order, and a simple name has the same candidates. Of several candidates at most
one is in a given namespace. So as long as the owner's namespace or the search order decides, the order
of the classifiers decides nothing: what inference finds in them is the same in any other order. -/

namespace ClassAtlas.Inference

/-! ## Names that tell classifiers apart -/

/-- Names have no points, and together with their namespaces they tell classifiers apart. -/
structure ToldApart (cs : List Classifier) : Prop where
  simple : ∀ c ∈ cs, '.' ∉ c.name.toList
  apart : ∀ a ∈ cs, ∀ b ∈ cs, a.namespaceName = b.namespaceName → a.name = b.name → a = b

section Names

variable {α : Type} {p : α → Bool} {xs xs' : List α} {cs : List Classifier} {a b : Classifier}

theorem qualify_string (n name : String) :
    qualify n name = if n = "" then name else n ++ "." ++ name := by
  simp only [qualify, Label.isVoid_string, Label.shown_string, String.isEmpty_iff]

theorem qualify_injective {n n' name name' : String} (hname : '.' ∉ name.toList)
    (hname' : '.' ∉ name'.toList) (h : qualify n name = qualify n' name') : n = n' ∧ name = name' := by
  have hlast := congrArg (fun s => lastSegment s.toList) h
  simp only [lastSegment_qualify hname, lastSegment_qualify hname', String.toList_inj] at hlast
  subst hlast
  refine ⟨?_, rfl⟩
  rw [qualify_string, qualify_string] at h
  split at h <;> rename_i hn <;> split at h <;> rename_i hn'
  · rw [hn, hn']
  · exact absurd (h ▸ by simp) hname
  · exact absurd (h ▸ by simp) hname
  · have htexts := congrArg String.toList h
    simp only [String.toList_append, List.append_assoc] at htexts
    exact String.toList_inj.mp (List.append_cancel_right htexts)

theorem ToldApart.eq_of_qualifiedName (h : ToldApart cs) (ha : a ∈ cs) (hb : b ∈ cs)
    (hname : a.qualifiedName = b.qualifiedName) : a = b := by
  obtain ⟨hnamespace, hname⟩ := qualify_injective (h.simple a ha) (h.simple b hb) hname
  exact h.apart a ha b hb hnamespace hname

/-- What at most one item passes finds the same item in any order. -/
theorem find?_perm (hperm : xs'.Perm xs)
    (hone : ∀ a ∈ xs, ∀ b ∈ xs, p a = true → p b = true → a = b) :
    xs'.find? p = xs.find? p := by
  cases hfound : xs.find? p with
  | none =>
    rw [List.find?_eq_none] at hfound ⊢
    exact fun x hx => hfound x (hperm.subset hx)
  | some a =>
    have ha := List.mem_of_find?_eq_some hfound
    have hpa := List.find?_some hfound
    obtain ⟨b, hb⟩ : ∃ b, xs'.find? p = some b := by
      rw [← Option.isSome_iff_exists, List.find?_isSome]
      exact ⟨a, hperm.symm.subset ha, hpa⟩
    have hbmem := hperm.subset (List.mem_of_find?_eq_some hb)
    rw [hb, hone b hbmem a ha (List.find?_some hb) hpa]

end Names

/-! ## Findings -/

/-- A classifier is preferred to others for its namespace, as seen from an owner. -/
def Preferred (searchOrder : List String) (owner c : Classifier) : Prop :=
  c.namespaceName = owner.namespaceName ∨ c.namespaceName ∈ searchOrder

/-- Two findings differ at most in the order of candidates. -/
inductive Finding.Reordered : Finding → Finding → Prop where
  | nothing : Reordered .nothing .nothing
  | qualified (c : Classifier) : Reordered (.qualified c) (.qualified c)
  | only (c : Classifier) : Reordered (.only c) (.only c)
  | several (name : String) {candidates candidates' : List Classifier} (chosen : Classifier)
      (candidates_perm : candidates'.Perm candidates) :
      Reordered (.several name candidates chosen) (.several name candidates' chosen)

theorem Finding.Reordered.symm {f f' : Finding} (h : f.Reordered f') : f'.Reordered f := by
  cases h with
  | nothing => exact .nothing
  | qualified c => exact .qualified c
  | only c => exact .only c
  | several name chosen hperm => exact .several name chosen hperm.symm

theorem Finding.Reordered.target?_eq {f f' : Finding} (h : f.Reordered f') :
    f'.target? = f.target? := by
  cases h <;> rfl

section Lookups

variable {cs cs' : List Classifier} {searchOrder : List String} {owner first first' chosen : Classifier}
  {candidates candidates' : List Classifier} {s : Scope} {name text : String}

theorem prefer_perm (cs' : List Classifier) (first' : Classifier) (hperm : candidates'.Perm candidates)
    (hone : ∀ a ∈ candidates, ∀ b ∈ candidates, a.namespaceName = b.namespaceName → a = b)
    (hfirst : first ∈ candidates)
    (hpreferred : Preferred searchOrder owner
      ((⟨cs, searchOrder⟩ : Scope).prefer owner first candidates)) :
    (⟨cs', searchOrder⟩ : Scope).prefer owner first' candidates' =
      (⟨cs, searchOrder⟩ : Scope).prefer owner first candidates := by
  have hwithin : ∀ n, candidates'.find? (·.namespaceName == n) =
      candidates.find? (·.namespaceName == n) := by
    intro n
    refine find?_perm hperm fun a ha b hb hna hnb => hone a ha b hb ?_
    rw [beq_iff_eq.mp hna, beq_iff_eq.mp hnb]
  unfold Scope.prefer at hpreferred ⊢
  dsimp only at hpreferred ⊢
  simp only [hwithin]
  cases hfound : (candidates.find? (·.namespaceName == owner.namespaceName)).or
      (searchOrder.findSome? fun n => candidates.find? (·.namespaceName == n)) with
  | some c => rfl
  | none =>
    -- then no candidate is preferred, and least of all the first one
    rw [hfound, Option.getD_none] at hpreferred
    obtain ⟨hown, hsearch⟩ := Option.or_eq_none_iff.mp hfound
    rcases hpreferred with hsame | hlisted
    · exact absurd (beq_iff_eq.mpr hsame) (List.find?_eq_none.mp hown first hfirst)
    · have hnone := List.findSome?_eq_none_iff.mp hsearch _ hlisted
      exact absurd (beq_self_eq_true _) (List.find?_eq_none.mp hnone first hfirst)

theorem name_of_lookUp (h : s.lookUp owner text = .several name candidates chosen) : name = text := by
  unfold Scope.lookUp at h
  split at h <;> cases h
  rfl

/-- A simple name is looked up alike in any order if a preference decides between several candidates. -/
theorem lookUp_reordered (hperm : cs'.Perm cs) (h : ToldApart cs)
    (hpreferred : ∀ candidates chosen,
      (⟨cs, searchOrder⟩ : Scope).lookUp owner name = .several name candidates chosen →
        Preferred searchOrder owner chosen) :
    ((⟨cs, searchOrder⟩ : Scope).lookUp owner name).Reordered
      ((⟨cs', searchOrder⟩ : Scope).lookUp owner name) := by
  have hnamed : ((⟨cs', searchOrder⟩ : Scope).named name).Perm
      ((⟨cs, searchOrder⟩ : Scope).named name) := hperm.filter _
  have hone : ∀ a ∈ (⟨cs, searchOrder⟩ : Scope).named name,
      ∀ b ∈ (⟨cs, searchOrder⟩ : Scope).named name, a.namespaceName = b.namespaceName → a = b := by
    intro a ha b hb hnamespace
    obtain ⟨ha, hna⟩ := List.mem_filter.mp ha
    obtain ⟨hb, hnb⟩ := List.mem_filter.mp hb
    exact h.apart a ha b hb hnamespace (by rw [beq_iff_eq.mp hna, beq_iff_eq.mp hnb])
  unfold Scope.lookUp at hpreferred ⊢
  generalize hcandidates : (⟨cs, searchOrder⟩ : Scope).named name = candidates at *
  generalize (⟨cs', searchOrder⟩ : Scope).named name = candidates' at *
  cases candidates with
  | nil =>
    rw [hnamed.eq_nil]
    exact .nothing
  | cons first others =>
    cases others with
    | nil =>
      rw [List.perm_singleton.mp hnamed]
      exact .only first
    | cons second others =>
      have hlength := hnamed.length_eq
      match candidates', hlength with
      | first' :: second' :: others', _ =>
        have hchosen := hpreferred _ _ rfl
        have hsame := prefer_perm cs' first' hnamed hone List.mem_cons_self hchosen
        simp only [hsame]
        exact .several name _ hnamed

/-- An ambiguity is one of the simple name that was looked up. -/
theorem find_several (h : s.find owner text = .several name candidates chosen) :
    s.lookUp owner name = .several name candidates chosen := by
  have hlookUp : ∀ {n}, s.lookUp owner n = .several name candidates chosen →
      s.lookUp owner name = .several name candidates chosen := by
    intro n hn
    obtain rfl : name = n := name_of_lookUp hn
    exact hn
  unfold Scope.find at h
  dsimp only at h
  split at h
  · cases h
  · split at h
    · split at h
      · cases h
      · split at h
        · exact hlookUp h
        · cases h
    · exact hlookUp h

theorem find_reordered (hperm : cs'.Perm cs) (h : ToldApart cs)
    (hpreferred : ∀ name candidates chosen,
      (⟨cs, searchOrder⟩ : Scope).find owner text = .several name candidates chosen →
        Preferred searchOrder owner chosen) :
    ((⟨cs, searchOrder⟩ : Scope).find owner text).Reordered
      ((⟨cs', searchOrder⟩ : Scope).find owner text) := by
  have hqualified : ∀ n, (⟨cs', searchOrder⟩ : Scope).qualified? n =
      (⟨cs, searchOrder⟩ : Scope).qualified? n := by
    intro n
    refine find?_perm hperm fun a ha b hb hna hnb => h.eq_of_qualifiedName ha hb ?_
    rw [beq_iff_eq.mp hna, beq_iff_eq.mp hnb]
  revert hpreferred
  unfold Scope.find
  simp only [hqualified]
  split
  · exact fun _ => .nothing
  · split
    · split
      · exact fun _ => .qualified _
      · split
        · exact fun hpreferred => lookUp_reordered hperm h (hpreferred _)
        · exact fun _ => .nothing
    · exact fun hpreferred => lookUp_reordered hperm h (hpreferred _)

end Lookups

/-! ## Reports -/

/-- Two ambiguities differ at most in the order of the candidates. -/
structure Ambiguity.Reordered (a a' : Ambiguity) : Prop where
  owner : a'.owner = a.owner
  reference : a'.reference = a.reference
  candidates : a'.candidates.Perm a.candidates
  chosen : a'.chosen = a.chosen

theorem Ambiguity.Reordered.symm {a a' : Ambiguity} (h : a.Reordered a') : a'.Reordered a :=
  ⟨h.owner.symm, h.reference.symm, h.candidates.symm, h.chosen.symm⟩

/-- Two reports say the same, in whatever order. -/
structure Report.Reordered (report report' : Report) : Prop where
  edges : ∀ t, t ∈ report'.relationships.map triple ↔ t ∈ report.relationships.map triple
  ambiguities : (∀ a ∈ report.ambiguities, ∃ a' ∈ report'.ambiguities, a.Reordered a') ∧
    ∀ a' ∈ report'.ambiguities, ∃ a ∈ report.ambiguities, a.Reordered a'
  unresolved : ∀ u, u ∈ report'.unresolved ↔ u ∈ report.unresolved

/-- The classifier chosen in an ambiguity is preferred for its namespace. -/
def Ambiguity.Settled (cs : List Classifier) (searchOrder : List String) (a : Ambiguity) : Prop :=
  ∃ owner ∈ cs, ∃ chosen ∈ cs, owner.qualifiedName = a.owner ∧ chosen.qualifiedName = a.chosen ∧
    Preferred searchOrder owner chosen

section Reports

variable {cs cs' : List Classifier} {searchOrder : List String} {s : Scope} {r r' : Reference}
  {refs refs' : List Reference} {key : String × String} {a : Ambiguity} {withSupertypes : Bool}

theorem ambiguity?_eq_some : r.ambiguity? s = some (key, a) ↔ ∃ name candidates chosen,
    s.find r.owner r.text = .several name candidates chosen ∧ key = (r.owner.id, name) ∧
      a = ⟨r.owner.qualifiedName, name, candidates.map (·.qualifiedName), chosen.qualifiedName⟩ := by
  unfold Reference.ambiguity?
  cases s.find r.owner r.text with
  | several name candidates chosen => simp [eq_comm, and_assoc]
  | _ => simp

/-- One owner runs into one ambiguity for a name. -/
theorem ambiguity?_unique {a' : Ambiguity} (h : r.ambiguity? s = some (key, a))
    (h' : r'.ambiguity? s = some (key, a')) (howner : r.owner.id = r'.owner.id → r.owner = r'.owner) :
    a = a' := by
  obtain ⟨name, candidates, chosen, hfind, hkey, rfl⟩ := ambiguity?_eq_some.mp h
  obtain ⟨name', candidates', chosen', hfind', hkey', rfl⟩ := ambiguity?_eq_some.mp h'
  obtain ⟨hid, rfl⟩ := Prod.mk.inj (hkey.symm.trans hkey')
  have hlookUp := find_several hfind
  rw [howner hid, find_several hfind'] at hlookUp
  cases hlookUp
  rw [howner hid]

/-- Ids tell the owners of references apart. -/
def OwnersApart (refs : List Reference) : Prop :=
  ∀ r ∈ refs, ∀ r' ∈ refs, r.owner.id = r'.owner.id → r.owner = r'.owner

/-- Where ids tell owners apart, every ambiguity that a reference runs into is noted. -/
theorem mem_ambiguities (howner : OwnersApart refs) :
    a ∈ ambiguities s refs ↔ ∃ r ∈ refs, ∃ key, r.ambiguity? s = some (key, a) := by
  rw [ambiguities, List.mem_map]
  constructor
  · intro hgiven
    obtain ⟨noted, hnoted, rfl⟩ := hgiven
    obtain ⟨r, hr, hfound⟩ := List.mem_filterMap.mp (firstBy_sublist.subset hnoted)
    exact ⟨r, hr, _, hfound⟩
  · intro hgiven
    obtain ⟨r, hr, key, hfound⟩ := hgiven
    -- what is noted under the key may come from an earlier reference of the same owner
    have hkey : key ∈ (refs.filterMap (·.ambiguity? s)).map (·.1) :=
      List.mem_map.mpr ⟨_, List.mem_filterMap.mpr ⟨r, hr, hfound⟩, rfl⟩
    obtain ⟨⟨key', a'⟩, hnoted, rfl⟩ :=
      List.mem_map.mp (mem_map_firstBy.mpr ⟨hkey, List.not_mem_nil⟩)
    obtain ⟨r', hr', hfound'⟩ := List.mem_filterMap.mp (firstBy_sublist.subset hnoted)
    exact ⟨_, hnoted, (ambiguity?_unique hfound hfound' (howner r hr r' hr')).symm⟩

/-- References that find the same up to order run into the same ambiguities up to order. -/
theorem exists_reordered {s' : Scope} (hrefs : ∀ r ∈ refs, r ∈ refs')
    (hfind : ∀ r ∈ refs, (s.find r.owner r.text).Reordered (s'.find r.owner r.text))
    (howner : OwnersApart refs') (ha : a ∈ ambiguities s refs) :
    ∃ a' ∈ ambiguities s' refs', a.Reordered a' := by
  have hgiven : OwnersApart refs := fun r hr r' hr' => howner r (hrefs r hr) r' (hrefs r' hr')
  obtain ⟨r, hr, key, hfound⟩ := (mem_ambiguities hgiven).mp ha
  obtain ⟨name, candidates, chosen, hsome, -, rfl⟩ := ambiguity?_eq_some.mp hfound
  have hsame := hfind r hr
  rw [hsome] at hsame
  cases hother : s'.find r.owner r.text with
  | several name' candidates' chosen' =>
    rw [hother] at hsame
    cases hsame with
    | several _ _ hperm =>
      refine ⟨_, (mem_ambiguities howner).mpr ⟨r, hrefs r hr, _, ambiguity?_eq_some.mpr
        ⟨_, _, _, hother, rfl, rfl⟩⟩, rfl, rfl, hperm.map _, rfl⟩
  | _ =>
    rw [hother] at hsame
    cases hsame

/-- Where ids tell classifiers apart, the edges found are those that references call for. -/
theorem mem_triples {d : Diagram}
    (hid : ∀ a ∈ d.classifiers, ∀ b ∈ d.classifiers, a.id = b.id ↔ a.key = b.key)
    (searchOrder : List String) (withSupertypes : Bool) (supply : Supply)
    (t : Nat × Nat × RelationshipKind) :
    t ∈ (analyze d searchOrder withSupertypes supply).1.relationships.map triple ↔
      ∃ r ∈ references d.classifiers withSupertypes, ∃ e,
        r.edge? ⟨d.classifiers, searchOrder⟩ = some e ∧ e.triple = t := by
  have hends : (analyze d searchOrder withSupertypes supply).1.relationships.map
      (fun r => (r.source, r.target, r.kind)) =
        (edges ⟨d.classifiers, searchOrder⟩ (references d.classifiers withSupertypes)).map Edge.ends :=
    enrolAll_ends
  have htriples := congrArg (List.map fun x => (x.1.key, x.2.1.key, x.2.2)) hends
  rw [List.map_map, List.map_map] at htriples
  have htriples : (analyze d searchOrder withSupertypes supply).1.relationships.map triple =
      (edges ⟨d.classifiers, searchOrder⟩ (references d.classifiers withSupertypes)).map Edge.triple :=
    htriples
  rw [htriples, edges_eq (s := ⟨d.classifiers, searchOrder⟩) hid, mem_map_firstBy,
    and_iff_left List.not_mem_nil, calledEdges, List.map_filterMap, List.mem_filterMap]
  simp only [Option.map_eq_some_iff]

theorem mem_references_perm (hperm : cs'.Perm cs) :
    r ∈ references cs' withSupertypes ↔ r ∈ references cs withSupertypes := by
  simp only [mem_references, hperm.mem_iff]

end Reports

section Whole

variable {w : Identity String} {d d' : Diagram} {searchOrder : List String} {withSupertypes : Bool}
  {supply : Supply} {r r' : Reference}

theorem ownersApart (h : Reachable w d) (withSupertypes : Bool) :
    OwnersApart (references d.classifiers withSupertypes) :=
  fun _ hr _ hr' => h.tracked.eq_of_id (owner_of_mem_references hr) (owner_of_mem_references hr')

/-- Where preference settles every ambiguity, no reference leaves anything to the order. -/
theorem reordered_of_mem (h : Reachable w d) (htold : ToldApart d.classifiers)
    (hsettled : ∀ a ∈ (analyze d searchOrder withSupertypes supply).1.ambiguities,
      a.Settled d.classifiers searchOrder)
    (hperm : d'.classifiers.Perm d.classifiers) (hr : r ∈ references d.classifiers withSupertypes) :
    ((⟨d.classifiers, searchOrder⟩ : Scope).find r.owner r.text).Reordered
      ((⟨d'.classifiers, searchOrder⟩ : Scope).find r.owner r.text) := by
  refine find_reordered hperm htold fun name candidates chosen hfind => ?_
  have hnoted := (mem_ambiguities (ownersApart h withSupertypes)).mpr
    ⟨r, hr, _, ambiguity?_eq_some.mpr ⟨_, _, _, hfind, rfl, rfl⟩⟩
  have htarget := congrArg Finding.target? (find_several hfind)
  obtain ⟨owner, howner, c, hc, hownerName, hchosenName, hpreferred⟩ := hsettled _ hnoted
  rwa [htold.eq_of_qualifiedName howner (owner_of_mem_references hr) hownerName,
    htold.eq_of_qualifiedName hc (Scope.lookUp_mem htarget).1 hchosenName] at hpreferred

/-- Names have no points and tell classifiers apart within their namespaces, and every ambiguity is
settled by the owner's namespace or by the search order. Then inference finds the same edges, ambiguities
and unresolved supertypes whatever the order of the classifiers. -/
theorem analyze_reordered (h : Reachable w d) (hpoint : ∀ c ∈ d.classifiers, '.' ∉ c.name.toList)
    (hpairs : d.classifiers.Pairwise fun a b => (a.namespaceName, a.name) ≠ (b.namespaceName, b.name))
    (hsettled : ∀ a ∈ (analyze d searchOrder withSupertypes supply).1.ambiguities,
      a.Settled d.classifiers searchOrder)
    (hperm : d'.classifiers.Perm d.classifiers) (supply' : Supply) :
    (analyze d searchOrder withSupertypes supply).1.Reordered
      (analyze d' searchOrder withSupertypes supply').1 := by
  have htold : ToldApart d.classifiers := by
    have hnodup := List.inj_on_of_nodup_map (List.pairwise_map.mpr hpairs)
    exact ⟨hpoint, fun a ha b hb hnamespace hname => hnodup ha hb (by rw [hnamespace, hname])⟩
  have hfind : ∀ r ∈ references d.classifiers withSupertypes,
      ((⟨d.classifiers, searchOrder⟩ : Scope).find r.owner r.text).Reordered
        ((⟨d'.classifiers, searchOrder⟩ : Scope).find r.owner r.text) :=
    fun r hr => reordered_of_mem h htold hsettled hperm hr
  have hresolve : ∀ r ∈ references d.classifiers withSupertypes,
      (⟨d'.classifiers, searchOrder⟩ : Scope).resolve r.owner r.text =
        (⟨d.classifiers, searchOrder⟩ : Scope).resolve r.owner r.text :=
    fun r hr => (hfind r hr).target?_eq
  have hrefs : ∀ r, r ∈ references d'.classifiers withSupertypes ↔
      r ∈ references d.classifiers withSupertypes := fun r => mem_references_perm hperm
  have howner := ownersApart h withSupertypes
  have howner' : OwnersApart (references d'.classifiers withSupertypes) :=
    fun r hr r' hr' => howner r ((hrefs r).mp hr) r' ((hrefs r').mp hr')
  have hid : ∀ a ∈ d.classifiers, ∀ b ∈ d.classifiers, a.id = b.id ↔ a.key = b.key := by
    intro a ha b hb
    constructor
    · intro hsame
      rw [h.tracked.eq_of_id ha hb hsame]
    · intro hsame
      rw [h.tracked.eq_of_key ha hb hsame]
  refine ⟨fun t => ?_, ⟨fun a ha => ?_, fun a' ha' => ?_⟩, fun u => ?_⟩
  · have hid' : ∀ a ∈ d'.classifiers, ∀ b ∈ d'.classifiers, a.id = b.id ↔ a.key = b.key :=
      fun a ha b hb => hid a (hperm.subset ha) b (hperm.subset hb)
    rw [mem_triples hid', mem_triples hid]
    refine exists_congr fun r => ?_
    rw [hrefs]
    refine and_congr_right fun hr => ?_
    rw [Reference.edge?, hresolve r hr, ← Reference.edge?]
  · exact exists_reordered (fun r hr => (hrefs r).mpr hr) hfind howner' ha
  · obtain ⟨a, ha, hsame⟩ := exists_reordered (fun r hr => (hrefs r).mp hr)
      (fun r hr => (hfind r ((hrefs r).mp hr)).symm) howner ha'
    exact ⟨a, ha, hsame.symm⟩
  · show u ∈ List.filterMap _ _ ↔ u ∈ List.filterMap _ _
    rw [List.mem_filterMap, List.mem_filterMap]
    refine exists_congr fun r => ?_
    rw [hrefs]
    refine and_congr_right fun hr => ?_
    rw [Reference.unresolved?, hresolve r hr, ← Reference.unresolved?]

/-- A cart of items, of which there are two. The search order decides between them, wherever in the
diagram they stand. -/
theorem analyze_reordered_cart :
    let spare := { bareClass 0 "i" with name := "Item", namespaceName := "spare" }
    let stock := { bareClass 1 "s" with name := "Item", namespaceName := "stock" }
    let cart := { bareClass 2 "c" with
      name := "Cart", namespaceName := "shop", declaredInterfaces := ["Movable"]
      fields := [⟨"items", "List<Item>", none, .private, false, true⟩] }
    let w : Identity String := ⟨fun key => if key = 0 then "i" else if key = 1 then "s" else "c",
      fun _ => 0, fun _ => 0⟩
    let d : Diagram := { (DiagramOf.empty "shop" "" none none none {}).1 with
      elements := [.classifier spare, .classifier stock, .classifier cart]
      index := [("i", 0), ("s", 1), ("c", 2)] }
    let d' : Diagram := { d with elements := d.elements.reverse }
    let found := (analyze d ["stock"] true {}).1
    let found' := (analyze d' ["stock"] true {}).1
    Reachable w d ∧ found.Reordered found' ∧ found'.relationships.map triple = [(2, 1, .composition)] ∧
      found'.ambiguities = [⟨"shop.Cart", "Item", ["stock.Item", "spare.Item"], "stock.Item"⟩] := by
  intro spare stock cart w d d' found found'
  have hreach : Reachable w d := by
    have hnew : Reachable w (DiagramOf.empty "shop" "" none none none {}).1 := .new ..
    have hspare := hnew.withClassifier (c := spare) rfl rfl
    have hstock := hspare.withClassifier (c := stock) rfl rfl
    exact hstock.withClassifier (c := cart) rfl rfl
  have hclassifiers : d.classifiers = [spare, stock, cart] := rfl
  have hnoted : found.ambiguities =
      [⟨"shop.Cart", "Item", ["spare.Item", "stock.Item"], "stock.Item"⟩] := by decide +kernel
  have hsettled : ∀ a ∈ found.ambiguities, a.Settled d.classifiers ["stock"] := by
    rw [hnoted, List.forall_mem_singleton]
    exact ⟨cart, by simp [hclassifiers], stock, by simp [hclassifiers], by decide, by decide,
      .inr List.mem_cons_self⟩
  have hperm : d'.classifiers.Perm d.classifiers := List.reverse_perm [spare, stock, cart]
  exact ⟨hreach, analyze_reordered hreach (by decide) (by decide) hsettled hperm {}, by decide +kernel,
    by decide +kernel⟩

end Whole

end ClassAtlas.Inference
