import ClassAtlas.Proofs.WrittenUnits
import Mathlib.Data.List.MinMax

/-! # Where units can go

The path of a unit is made of texts that nobody has looked at: a name may start with a slash, and it may
hold steps to the directory above. It is said here exactly which classifiers keep their units where they
belong, for the paths of units among themselves and for the paths below a directory. -/

namespace ClassAtlas.Path

/-! ## Resolving double points -/

/-- What a name does to the names before it, the last of them first. -/
def resolveStep (absolute : Bool) (done : List String) (name : String) : List String :=
  if name == ".." then
    match done with
    | [] => if absolute then [] else [".."]
    | last :: rest => if last == ".." then ".." :: done else rest
  else name :: done

/-- The names that a path comes to when each pair of a name and a following double point is taken out. -/
def resolved (path : String) : List String := resolveNames (path.startsWith "/") (names path)

section Resolving

variable {absolute : Bool} {done ns more : List String} {name root : String}

theorem resolveNames_eq : resolveNames absolute ns = (ns.foldl (resolveStep absolute) []).reverse := rfl

theorem resolveStep_name (h : name ≠ "..") : resolveStep absolute done name = name :: done := by
  simp [resolveStep, h]

theorem resolveStep_up (h : name ≠ "..") : resolveStep absolute (name :: done) ".." = done := by
  simp [resolveStep, h]

theorem mem_resolveStep (h : root ∈ resolveStep absolute done name) : root ∈ done ∨ root = name := by
  unfold resolveStep at h
  split at h
  · rename_i hup
    rw [beq_iff_eq] at hup
    split at h
    · split at h <;> simp_all
    · split at h
      · rcases List.mem_cons.mp h with rfl | h
        · exact .inr hup.symm
        · exact .inl h
      · exact .inl (List.mem_cons_of_mem _ h)
  · rcases List.mem_cons.mp h with rfl | h
    · exact .inr rfl
    · exact .inl h

/-- A last name that leaves no double point is put behind names without one, or takes one of them off. -/
theorem resolve_concat_cases (h : ".." ∉ (ns ++ [name]).foldl (resolveStep false) []) :
    (name ≠ ".." ∧ ".." ∉ ns.foldl (resolveStep false) []) ∨
      (name = ".." ∧ ∃ last rest, ns.foldl (resolveStep false) [] = last :: rest ∧ last ≠ ".." ∧
        ".." ∉ rest) := by
  rw [List.foldl_append, List.foldl_cons, List.foldl_nil] at h
  by_cases hname : name = ".."
  · subst hname
    right
    refine ⟨rfl, ?_⟩
    generalize ns.foldl (resolveStep false) [] = done at h ⊢
    cases done with
    | nil => simp [resolveStep] at h
    | cons last rest =>
      by_cases hlast : last = ".."
      · simp [resolveStep, hlast] at h
      · rw [resolveStep_up hlast] at h
        exact ⟨last, rest, rfl, hlast, h⟩
  · rw [resolveStep_name hname, List.mem_cons, not_or] at h
    exact .inl ⟨hname, h.2⟩

/-- Names that never lead above where they start come to the same behind any others. -/
theorem foldl_resolveStep (h : ".." ∉ ns.foldl (resolveStep false) []) :
    ns.foldl (resolveStep absolute) done = ns.foldl (resolveStep false) [] ++ done := by
  induction ns using List.reverseRecOn with
  | nil => rfl
  | append_singleton ns name ih =>
    rcases resolve_concat_cases h with ⟨hname, hns⟩ | ⟨rfl, last, rest, hns, hlast, hrest⟩
    · simp only [List.foldl_append, List.foldl_cons, List.foldl_nil, resolveStep_name hname, ih hns,
        List.cons_append]
    · have hdone : ".." ∉ ns.foldl (resolveStep false) [] := by
        rw [hns, List.mem_cons, not_or]
        exact ⟨hlast.symm, hrest⟩
      have ih := ih hdone
      rw [hns, List.cons_append] at ih
      simp only [List.foldl_append, List.foldl_cons, List.foldl_nil, ih, hns, resolveStep_up hlast]

/-- Names that lead above where they start take off the name before them. -/
theorem not_mem_foldl_resolveStep (h : ".." ∈ ns.foldl (resolveStep false) []) (hroot : root ∉ ns)
    (hname : root ≠ "..") : root ∉ ns.foldl (resolveStep false) [root] := by
  induction ns using List.reverseRecOn with
  | nil => cases h
  | append_singleton ns name ih =>
    rw [List.mem_append, List.mem_singleton, not_or] at hroot
    simp only [List.foldl_append, List.foldl_cons, List.foldl_nil] at h ⊢
    by_cases hns : ".." ∈ ns.foldl (resolveStep false) []
    · intro hmem
      rcases mem_resolveStep hmem with hmem | heq
      · exact ih hns hroot.1 hmem
      · exact hroot.2 heq
    · rw [foldl_resolveStep hns]
      rcases mem_resolveStep h with h | rfl
      · exact absurd h hns
      · -- the double point found nothing to take off, so it takes off the root
        generalize ns.foldl (resolveStep false) [] = done at h hns
        cases done with
        | nil =>
          rw [List.nil_append, resolveStep_up hname]
          exact List.not_mem_nil
        | cons last rest =>
          rw [List.mem_cons, not_or] at hns
          rw [resolveStep_up (Ne.symm hns.1)] at h
          exact absurd h hns.2

theorem resolveNames_append (h : ".." ∉ resolveNames false more) :
    resolveNames absolute (ns ++ more) = resolveNames absolute ns ++ resolveNames false more := by
  rw [resolveNames_eq, List.mem_reverse] at h
  rw [resolveNames_eq, resolveNames_eq, resolveNames_eq, List.foldl_append, foldl_resolveStep h,
    List.reverse_append]

/-- Names are what they come to if no double point is among them. -/
theorem resolveNames_self (h : ".." ∉ ns) : resolveNames absolute ns = ns := by
  induction ns using List.reverseRecOn with
  | nil => rfl
  | append_singleton ns name ih =>
    rw [List.mem_append, List.mem_singleton, not_or] at h
    have ih := ih h.1
    rw [resolveNames_eq] at ih ⊢
    rw [List.foldl_append, List.foldl_cons, List.foldl_nil, resolveStep_name (Ne.symm h.2),
      List.reverse_cons, ih]

end Resolving

/-! ## Joined paths -/

section Joining

variable {path part root : String} {parts : List String}

theorem names_join (h : part.startsWith "/" = false) : names (join path part) = names path ++ names part := by
  rw [join, h, if_neg Bool.false_ne_true]
  split
  · rename_i hend
    rcases Bool.or_eq_true_iff.mp hend with hempty | hslash
    · rw [String.isEmpty_iff.mp hempty, names_empty, String.empty_append, List.nil_append]
    · obtain ⟨more, hmore⟩ := endsWith_slash.mp hslash
      have hpath : path = String.ofList more ++ "/" := by
        simp [← String.toList_inj, hmore]
      rw [hpath, names_append, names_slash]
  · exact names_append path part

/-- Parts that do not start at the top put their names behind those of a path. -/
theorem names_joinAll (h : ∀ part ∈ parts, part.startsWith "/" = false) :
    names (joinAll path parts) = names path ++ parts.flatMap names := by
  induction parts generalizing path with
  | nil => simp [joinAll]
  | cons part parts ih =>
    obtain ⟨hpart, hparts⟩ := List.forall_mem_cons.mp h
    rw [joinAll_cons, ih hparts, names_join hpart, List.flatMap_cons,
      List.append_assoc]

theorem startsWith_slash : path.startsWith "/" = true ↔ path.toList.head? = some '/' := by
  rw [String.startsWith_string_iff]
  show ['/'] <+: path.toList ↔ _
  cases path.toList with
  | nil => simp
  | cons c cs => simp [eq_comm]

/-- A path starts at the top if what is put behind it does, or if it did before. -/
theorem startsWith_join :
    (join path part).startsWith "/" = (path.startsWith "/" || part.startsWith "/") := by
  cases hpart : part.startsWith "/" with
  | true => rw [join, if_pos hpart, hpart, Bool.or_true]
  | false =>
    rw [join, hpart, if_neg Bool.false_ne_true, Bool.or_false, Bool.eq_iff_iff, startsWith_slash,
      startsWith_slash]
    by_cases hpath : path = ""
    · have hhead := startsWith_slash.not.mp (Bool.eq_false_iff.mp hpart)
      simp [hpath, hhead]
    · obtain ⟨c, cs, hcs⟩ := List.exists_cons_of_ne_nil (mt String.toList_eq_nil_iff.mp hpath)
      split <;> simp [hcs]

theorem startsWith_joinAll : (joinAll path parts).startsWith "/" =
    (path.startsWith "/" || parts.any (·.startsWith "/")) := by
  induction parts generalizing path with
  | nil => simp [joinAll]
  | cons part parts ih =>
    rw [joinAll_cons, ih, startsWith_join, List.any_cons, Bool.or_assoc]

theorem startsWith_joinAll_eq_false : (joinAll path parts).startsWith "/" = false ↔
    path.startsWith "/" = false ∧ ∀ part ∈ parts, part.startsWith "/" = false := by
  simp [startsWith_joinAll]

/-- The characters of a piece are those of the text. -/
theorem mem_of_mem_splitOn {cs piece : List Char} {sep c : Char} (h : piece ∈ cs.splitOn sep)
    (hc : c ∈ piece) : c ∈ cs := by
  induction cs generalizing piece with
  | nil =>
    rw [List.splitOn_nil, List.mem_singleton] at h
    exact h ▸ hc
  | cons first cs ih =>
    rw [List.splitOn_cons_eq_if_modifyHead] at h
    obtain ⟨head, rest, heq⟩ := List.exists_cons_of_ne_nil (List.splitOn_ne_nil sep cs)
    rw [heq] at h ih
    split at h
    · rcases List.mem_cons.mp h with rfl | hpiece
      · cases hc
      · exact List.mem_cons_of_mem _ (ih hpiece hc)
    · rcases List.mem_cons.mp h with rfl | hpiece
      · rcases List.mem_cons.mp hc with rfl | hc
        · exact List.mem_cons_self
        · exact List.mem_cons_of_mem _ (ih List.mem_cons_self hc)
      · exact List.mem_cons_of_mem _ (ih (List.mem_cons_of_mem _ hpiece) hc)

theorem up_mem_names : ".." ∈ names path ↔ ".." ∈ path.splitOn "/" := by
  rw [names_eq, List.mem_filter]
  exact and_iff_left (by decide)

end Joining

/-! ## Paths inside a directory -/

section Inside

variable {root : String} {parts : List String}

/-- A path that leads to something below a root: it starts where the root does, and what it comes to has
the names of the root and then others, with no step up among them. -/
structure Inside (root path : String) : Prop where
  start : path.startsWith "/" = root.startsWith "/"
  names : ∃ below, below ≠ [] ∧ ".." ∉ below ∧ resolved path = resolved root ++ below

/-- A path that leads to something below wherever one stands. -/
structure Descends (path : String) : Prop where
  relative : path.startsWith "/" = false
  nonempty : resolved path ≠ []
  confined : ".." ∉ resolved path

theorem names_joined (root : String) (h : ∀ part ∈ parts, part.startsWith "/" = false) :
    names (joinAll root parts) = names root ++ names (joinAll "" parts) := by
  rw [names_joinAll h, names_joinAll h, names_empty, List.nil_append]

theorem relative_joinAll :
    (joinAll "" parts).startsWith "/" = false ↔ ∀ part ∈ parts, part.startsWith "/" = false := by
  rw [startsWith_joinAll_eq_false]
  exact and_iff_right (by decide)

theorem Descends.inside (h : Descends (joinAll "" parts)) (root : String) : Inside root (joinAll root parts) := by
  have hparts := relative_joinAll.mp h.relative
  have hstart : (joinAll root parts).startsWith "/" = root.startsWith "/" := by
    rw [startsWith_joinAll, List.any_eq_false.mpr fun part hpart => by simp [hparts part hpart],
      Bool.or_false]
  have hup := h.confined
  rw [resolved, h.relative] at hup
  refine ⟨hstart, resolved (joinAll "" parts), h.nonempty, h.confined, ?_⟩
  rw [resolved, hstart, names_joined root hparts, resolveNames_append hup, resolved, resolved, h.relative]

/-- A directory with a name that is not among some others. -/
theorem exists_fresh (ns : List String) : ∃ root, root ∉ ns ∧ root ≠ "" ∧ root ≠ ".." ∧
    root.startsWith "/" = false ∧ names root = [root] := by
  have hlongest : ∀ name ∈ ns, name.length ≤ (ns.map String.length).foldr max 0 := fun name hname =>
    List.le_max_of_le' 0 (List.mem_map_of_mem hname) (Nat.le_refl _)
  generalize (ns.map String.length).foldr max 0 = n at hlongest
  obtain ⟨root, hroot⟩ : ∃ root, root = String.ofList (List.replicate (n + 3) 'a') := ⟨_, rfl⟩
  have hlength : root.length = n + 3 := by simp [hroot]
  have hslash : '/' ∉ root.toList := by simp [hroot]
  have hne {name : String} (hname : name.length < 3) : root ≠ name := by
    rintro rfl
    omega
  refine ⟨root, fun hmem => ?_, hne (by decide), hne (by decide),
    not_absolute fun hhead => hslash (List.mem_of_mem_head? hhead), ?_⟩
  · have hlong := hlongest _ hmem
    omega
  · have hcounts : counts root = true := counts_eq_true (not_or.mpr ⟨hne (by decide), hne (by decide)⟩)
    rw [names_eq, splitOn_piece separates_slash hslash, List.filter_singleton, hcounts]
    rfl

/-- Parts lead below each directory exactly when they do so by themselves. -/
theorem inside_iff_descends :
    (∀ root, root ≠ "" → Inside root (joinAll root parts)) ↔ Descends (joinAll "" parts) := by
  constructor
  · intro h
    obtain ⟨root, hfresh, hne, hup, hrelative, hnames⟩ := exists_fresh (parts.flatMap names)
    obtain ⟨hstart, below, hbelow, hconfined, hresolved⟩ := h root hne
    obtain ⟨-, hparts⟩ := startsWith_joinAll_eq_false.mp (hstart.trans hrelative)
    have hkey : names (joinAll "" parts) = parts.flatMap names := by
      rw [names_joinAll hparts, names_empty, List.nil_append]
    have hroot : resolved root = [root] := by
      rw [resolved, hnames]
      exact resolveNames_self (by simpa using hup.symm)
    have hjoined : resolved (joinAll root parts) = resolveNames false ([root] ++ parts.flatMap names) := by
      rw [resolved, hstart, hrelative, names_joinAll hparts, hnames]
    have hkept : ".." ∉ resolveNames false (parts.flatMap names) := by
      intro hclimbs
      -- the step up that is left over would take the directory itself off
      have hgone := not_mem_foldl_resolveStep (List.mem_reverse.mp hclimbs) hfresh hup
      have hmem : root ∈ resolved (joinAll root parts) := by simp [hresolved, hroot]
      rw [hjoined, resolveNames_eq, List.mem_reverse, List.foldl_append, List.foldl_cons, List.foldl_nil,
        resolveStep_name hup] at hmem
      exact hgone hmem
    have hself : resolveNames false [root] = [root] := resolveNames_self (by simpa using hup.symm)
    rw [hresolved, hroot, resolveNames_append hkept, hself] at hjoined
    have hkeyed : resolved (joinAll "" parts) = below := by
      rw [resolved, relative_joinAll.mpr hparts, hkey]
      exact (List.append_cancel_left hjoined).symm
    exact ⟨relative_joinAll.mpr hparts, hkeyed ▸ hbelow, hkeyed ▸ hconfined⟩
  · intro h root _
    exact h.inside root

end Inside

end ClassAtlas.Path

namespace ClassAtlas.Java

open ClassAtlas.Path (Inside Descends joinAll names resolved)

section Confined

variable {style : UnitStyle} {d : Diagram} {c : Classifier} {path other text : String}
  {files : List (String × String)}

theorem mem_paths_putFile :
    path ∈ (putFile other text files).map (·.1) ↔ path = other ∨ path ∈ files.map (·.1) := by
  induction files with
  | nil => simp [putFile]
  | cons file files ih =>
    rw [putFile]
    split
    · rename_i hsame
      rw [beq_iff_eq] at hsame
      simp [hsame]
    · rw [List.map_cons, List.mem_cons, ih, List.map_cons, List.mem_cons]
      exact or_left_comm

/-- There is a unit under each path that some classifier has. -/
theorem mem_paths_units :
    path ∈ (units style d).map (·.1) ↔ ∃ c ∈ d.classifiers, path = unitPath style c := by
  have hfold (cs : List Classifier) (files : List (String × String)) : path ∈ (cs.foldl (fun files c =>
      putFile (unitPath style c) (unitOf style d c) files) files).map (·.1) ↔
      path ∈ files.map (·.1) ∨ ∃ c ∈ cs, path = unitPath style c := by
    induction cs generalizing files with
    | nil => simp
    | cons c cs ih =>
      rw [List.foldl_cons, ih, mem_paths_putFile, List.exists_mem_cons_iff, or_comm (a := path = _),
        or_assoc]
  exact (hfold d.classifiers []).trans (by simp)

theorem forall_units {p : String → Prop} :
    (∀ file ∈ units style d, p file.1) ↔ ∀ c ∈ d.classifiers, p (unitPath style c) := by
  rw [← List.forall_mem_map (f := Prod.fst) (P := p)]
  constructor
  · intro h c hc
    exact h _ (mem_paths_units.mpr ⟨c, hc, rfl⟩)
  · intro h path hpath
    obtain ⟨c, hc, rfl⟩ := mem_paths_units.mp hpath
    exact h c hc

theorem unitPath_eq : unitPath style c = joinAll "" (unitPlace style c) := rfl

/-- No step up comes from a namespace. -/
theorem up_mem_unitPath (h : ∀ part ∈ unitPlace style c, part.startsWith "/" = false) :
    ".." ∈ (unitPath style c).splitOn "/" ↔ ".." ∈ (c.name ++ style.fileSuffix).splitOn "/" := by
  have hsegments : ".." ∉ (segments c.namespaceName).flatMap names := by
    rw [List.mem_flatMap]
    rintro ⟨s, hs, hup⟩
    rw [Path.up_mem_names, Path.splitOn_eq Path.separates_slash] at hup
    obtain ⟨piece, hpiece, hup⟩ := List.mem_map.mp hup
    have hpoint : '.' ∈ piece := by
      rw [← String.toList_ofList (l := piece), hup]
      decide
    exact bare_segment hs (Path.mem_of_mem_splitOn hpiece hpoint)
  rw [← Path.up_mem_names, unitPath_eq, Path.names_joinAll h, Path.names_empty, List.nil_append,
    unitPlace, List.flatMap_append, List.mem_append, or_iff_right hsegments, List.flatMap_singleton,
    Path.up_mem_names]

/-- Which classifiers keep their units where they belong. The paths of all units are relative and have no
step up on them exactly if nothing on the way to a unit starts with a slash, and no name and suffix have a
step up between slashes; namespaces cannot have one. Below every directory all units stay inside it exactly
if each path leads somewhere below wherever one stands. -/
theorem units_confined_iff {style : UnitStyle} {d : Diagram} :
    ((∀ file ∈ units style d, file.1.startsWith "/" = false ∧ ".." ∉ file.1.splitOn "/") ↔
        ∀ c ∈ d.classifiers, (∀ part ∈ unitPlace style c, part.startsWith "/" = false) ∧
          ".." ∉ (c.name ++ style.fileSuffix).splitOn "/") ∧
      ((∀ root, root ≠ "" → ∀ file ∈ placedUnits style root d, Inside root file.1) ↔
        ∀ file ∈ units style d, Descends file.1) := by
  constructor
  · rw [forall_units (p := fun path => path.startsWith "/" = false ∧ ".." ∉ path.splitOn "/")]
    refine forall₂_congr fun c _ => ?_
    rw [unitPath_eq, Path.relative_joinAll]
    exact and_congr_right fun hparts => not_congr (up_mem_unitPath hparts)
  · rw [forall_units (p := Descends)]
    constructor
    · intro h c hc
      refine Path.inside_iff_descends.mp fun root hroot => ?_
      exact h root hroot _ (List.mem_map_of_mem hc)
    · intro h root _ file hfile
      obtain ⟨c, hc, rfl⟩ := List.mem_map.mp hfile
      exact (h c hc).inside root

end Confined

theorem forall_units_single {style : UnitStyle} {name : String} {p : String → Prop} :
    (∀ file ∈ units style (single name), p file.1) ↔ p (name ++ style.fileSuffix) := by
  have hpath : unitPath style (bareClass 0 name) = name ++ style.fileSuffix := by
    show Path.join "" (name ++ style.fileSuffix) = _
    rw [Path.join]
    split
    · rfl
    · exact String.empty_append
  rw [forall_units, classifiers_single, List.forall_mem_singleton]
  exact iff_of_eq (congrArg p hpath)

/-- The unit of a class called after a step up leaves the directory, and that of one called after a slash
is found from the top. The unit of a plain name stays inside. -/
theorem units_confined_iff_climbing :
    (¬ ∀ root, root ≠ "" → ∀ file ∈ placedUnits {} root (single "../Shape"), Inside root file.1) ∧
      (¬ ∀ file ∈ units {} (single "/Shape"),
        file.1.startsWith "/" = false ∧ ".." ∉ file.1.splitOn "/") ∧
      ∀ root, root ≠ "" → ∀ file ∈ placedUnits {} root (single "Shape"), Inside root file.1 := by
  refine ⟨?_, ?_, ?_⟩
  · rw [units_confined_iff.2, forall_units_single (p := Descends)]
    intro h
    have hclimbs : ".." ∈ resolved "../Shape.java" := by
      rw [resolved, Path.not_absolute (by decide), Path.names_eq, Path.splitOn_eq Path.separates_slash]
      decide
    exact h.confined hclimbs
  · rw [units_confined_iff.1, classifiers_single, List.forall_mem_singleton]
    intro h
    have habsolute : "/Shape.java".startsWith "/" = true := Path.startsWith_slash.mpr (by decide)
    have hplace := h.1 "/Shape.java" List.mem_cons_self
    rw [habsolute] at hplace
    cases hplace
  · rw [units_confined_iff.2, forall_units_single (p := Descends)]
    have hresolved : resolved "Shape.java" = ["Shape.java"] := by
      rw [resolved, Path.not_absolute (by decide), Path.names_eq, Path.splitOn_eq Path.separates_slash]
      decide
    show Descends "Shape.java"
    exact ⟨Path.not_absolute (by decide), by rw [hresolved]; decide, by rw [hresolved]; decide⟩

end ClassAtlas.Java
