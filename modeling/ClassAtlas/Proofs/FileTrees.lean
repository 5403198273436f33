import ClassAtlas.Files.Node
import Mathlib.Data.List.Basic

/-! # Trees of files

What stands at which place after a node was put into a tree, or after a tree was grown to hold it. Of
a tree that keeps points to the names of files, growing it by one file changes what the files are at
that place and nowhere else. -/

namespace ClassAtlas

/-- Where no two entries have the same name, looking one up finds the entry that is there. -/
theorem lookup_iff_mem {α : Type} {entries : List (String × α)} {name : String} {x : α}
    (h : (entries.map (·.1)).Nodup) : entries.lookup name = some x ↔ (name, x) ∈ entries := by
  induction entries with
  | nil => simp
  | cons e entries ih =>
    obtain ⟨k, y⟩ := e
    rw [List.map_cons, List.nodup_cons] at h
    rw [List.lookup_cons, List.mem_cons, Prod.mk.injEq]
    by_cases hk : name = k
    · subst hk
      have hnone : (name, x) ∉ entries := fun hmem => h.1 (List.mem_map.mpr ⟨_, hmem, rfl⟩)
      simp [hnone, eq_comm]
    · rw [beq_eq_false_iff_ne.mpr hk]
      simpa [hk] using ih h.2

end ClassAtlas

namespace ClassAtlas.Files.Node

/-! ## Reading after writing -/

section Places

variable {n m top : Node} {entries : List (String × Node)} {name other : String}
  {place rest : List String}

theorem lookup_setEntry :
    (setEntry name n entries).lookup other = if other = name then some n else entries.lookup other := by
  induction entries with
  | nil =>
    simp only [setEntry, List.lookup_cons, List.lookup_nil]
    split <;> simp_all
  | cons entry entries ih =>
    obtain ⟨k, old⟩ := entry
    rw [setEntry]
    by_cases hk : k = name
    · subst hk
      rw [if_pos (beq_self_eq_true k), List.lookup_cons, List.lookup_cons]
      by_cases hother : other = k
      · simp [hother]
      · rw [if_neg hother, beq_eq_false_iff_ne.mpr hother]
    · rw [if_neg (by simpa using hk), List.lookup_cons, List.lookup_cons, ih]
      by_cases hother : other = k
      · subst hother
        simp [hk]
      · rw [beq_eq_false_iff_ne.mpr hother]

theorem setEntry_new (h : entries.lookup name = none) :
    setEntry name n entries = entries ++ [(name, n)] := by
  induction entries with
  | nil => rfl
  | cons entry entries ih =>
    obtain ⟨k, old⟩ := entry
    rw [List.lookup_cons] at h
    cases hk : name == k with
    | true =>
      rw [hk] at h
      cases h
    | false =>
      rw [hk] at h
      rw [setEntry, BEq.comm, hk, if_neg Bool.false_ne_true, ih h, List.cons_append]

theorem setEntry_self (h : entries.lookup name = some n) : setEntry name n entries = entries := by
  induction entries with
  | nil => cases h
  | cons entry entries ih =>
    obtain ⟨k, old⟩ := entry
    rw [setEntry]
    by_cases hk : k = name
    · subst hk
      rw [List.lookup_cons, beq_self_eq_true] at h
      cases h
      rw [if_pos (beq_self_eq_true k)]
    · have hk' : (name == k) = false := beq_eq_false_iff_ne.mpr (Ne.symm hk)
      rw [List.lookup_cons, hk'] at h
      rw [if_neg (by simpa using hk), ih h]

theorem setEntry_setEntry : setEntry name n (setEntry name m entries) = setEntry name n entries := by
  induction entries with
  | nil => simp [setEntry]
  | cons entry entries ih =>
    obtain ⟨k, old⟩ := entry
    by_cases hk : (k == name) = true
    · simp only [setEntry, if_pos hk]
    · simp only [setEntry, if_neg hk, ih]

@[simp] theorem at?_nil : n.at? [] = some n := by
  cases n <;> rfl

theorem at?_cons : (directory entries).at? (name :: rest) = (entries.lookup name).bind (·.at? rest) := rfl

theorem at?_append : n.at? (place ++ rest) = (n.at? place).bind (·.at? rest) := by
  induction place generalizing n with
  | nil => rw [List.nil_append, at?_nil, Option.bind_some]
  | cons name place ih =>
    cases n with
    | directory entries =>
      rw [List.cons_append, at?_cons, at?_cons, Option.bind_assoc]
      exact Option.bind_congr fun _ _ => ih
    | file content => rfl
    | link target => rfl

theorem at?_setEntry : (directory (setEntry name n entries)).at? (other :: rest) =
    if other = name then n.at? rest else (directory entries).at? (other :: rest) := by
  rw [at?_cons, lookup_setEntry, at?_cons]
  split <;> rfl

/-- Only directories have anything in them. -/
theorem eq_directory_of_at? (h : n.at? (name :: rest) = some m) : ∃ entries, n = directory entries := by
  cases n with
  | directory entries => exact ⟨entries, rfl⟩
  | file content => cases h
  | link target => cases h

theorem put_nil : put n top [] = n := by
  cases top <;> rfl

theorem put_cons (h : entries.lookup name = some m) :
    put n (directory entries) (name :: rest) = directory (setEntry name (put n m rest) entries) := by
  simp only [put, h]

theorem put_single : put n (directory entries) [name] = directory (setEntry name n entries) := by
  cases h : entries.lookup name with
  | none =>
    simp only [put, h]
    rw [setEntry_new h]
  | some old => rw [put_cons h, put_nil]

/-- A place that is there begins with an entry, unless it is the top. -/
theorem exists_entry (h : top.at? (name :: place) = some m) :
    ∃ entries child, top = directory entries ∧ entries.lookup name = some child ∧
      child.at? place = some m := by
  obtain ⟨entries, rfl⟩ := eq_directory_of_at? h
  obtain ⟨child, hchild, hrest⟩ := Option.bind_eq_some_iff.mp h
  exact ⟨entries, child, rfl, hchild, hrest⟩

/-- Putting something below a place that is there is putting it into what stands there. -/
theorem put_append (h : top.at? place = some m) :
    put n top (place ++ rest) = put (put n m rest) top place := by
  induction place generalizing top with
  | nil =>
    rw [at?_nil] at h
    cases h
    rw [List.nil_append, put_nil]
  | cons name place ih =>
    obtain ⟨entries, child, rfl, hchild, hplace⟩ := exists_entry h
    rw [List.cons_append, put_cons hchild, put_cons hchild, ih hplace]

theorem at?_put (h : top.at? place = some m) : (put n top place).at? place = some n := by
  induction place generalizing top with
  | nil => rw [put_nil, at?_nil]
  | cons name place ih =>
    obtain ⟨entries, child, rfl, hchild, hplace⟩ := exists_entry h
    rw [put_cons hchild, at?_setEntry, if_pos rfl, ih hplace]

theorem put_put (h : top.at? place = some m) {n' : Node} :
    put n (put n' top place) place = put n top place := by
  induction place generalizing top with
  | nil => rw [put_nil, put_nil]
  | cons name place ih =>
    obtain ⟨entries, child, rfl, hchild, hplace⟩ := exists_entry h
    have hchild' : (setEntry name (put n' child place) entries).lookup name =
        some (put n' child place) := by rw [lookup_setEntry, if_pos rfl]
    rw [put_cons hchild, put_cons hchild', put_cons hchild, setEntry_setEntry, ih hplace]

theorem put_self (h : top.at? place = some n) : put n top place = top := by
  induction place generalizing top with
  | nil =>
    rw [at?_nil] at h
    cases h
    exact put_nil
  | cons name place ih =>
    obtain ⟨entries, child, rfl, hchild, hplace⟩ := exists_entry h
    rw [put_cons hchild, ih hplace, setEntry_self hchild]

end Places

/-! ## What stays -/

/-- Directories are still directories, and links are still the same. -/
structure Keeps (top top' : Node) : Prop where
  directory : ∀ place entries, top.at? place = some (.directory entries) →
    ∃ entries', top'.at? place = some (.directory entries')
  link : ∀ place target, top.at? place = some (.link target) → top'.at? place = some (.link target)

/-- An empty directory can be filled without harm to anything else. -/
theorem keeps_put {top : Node} {place : List String} {entries : List (String × Node)}
    (h : top.at? place = some (.directory [])) : Keeps top (put (.directory entries) top place) := by
  induction place generalizing top with
  | nil =>
    rw [at?_nil] at h
    cases h
    refine ⟨fun place _ hplace => ?_, fun place _ hplace => ?_⟩
    · cases place with
      | nil => exact ⟨entries, by rw [put_nil, at?_nil]⟩
      | cons name place => cases hplace
    · cases place <;> cases hplace
  | cons name place ih =>
    obtain ⟨siblings, child, rfl, hchild, hplace⟩ := exists_entry h
    have hkeeps := ih hplace
    rw [put_cons hchild]
    refine ⟨fun place' _ hplace' => ?_, fun place' _ hplace' => ?_⟩
    · cases place' with
      | nil => exact ⟨_, at?_nil⟩
      | cons other place' =>
        rw [at?_setEntry]
        split
        · rename_i hother
          rw [at?_cons, hother, hchild] at hplace'
          exact hkeeps.directory _ _ hplace'
        · exact ⟨_, hplace'⟩
    · cases place' with
      | nil => cases hplace'
      | cons other place' =>
        rw [at?_setEntry]
        split
        · rename_i hother
          rw [at?_cons, hother, hchild] at hplace'
          exact hkeeps.link _ _ hplace'
        · exact hplace'

/-! ## Trees with points in the names of files -/

/-- A name without points. -/
def IsBare (name : String) : Prop := '.' ∉ name.toList

/-- A tree of directories with bare names in which all other names are those of files. -/
inductive Sorted : Node → Prop
  | directory {entries : List (String × Node)}
      (files : ∀ name n, entries.lookup name = some n → ¬ IsBare name → ∃ content, n = .file content)
      (directories : ∀ name n, entries.lookup name = some n → IsBare name → Sorted n) :
      Sorted (.directory entries)

section Sorted

variable {n m tree : Node} {entries : List (String × Node)} {name : String} {q place r : List String}
  {content content' : Content}

theorem sorted_empty : Sorted (.directory []) :=
  .directory (fun _ _ h => nomatch h) (fun _ _ h => nomatch h)

theorem Sorted.exists_directory (h : Sorted tree) : ∃ entries, tree = .directory entries := by
  cases h with
  | directory => exact ⟨_, rfl⟩

theorem Sorted.at? (h : Sorted tree) (hq : ∀ name ∈ q, IsBare name) (hn : tree.at? q = some n) :
    Sorted n := by
  induction q generalizing tree with
  | nil =>
    rw [at?_nil] at hn
    cases hn
    exact h
  | cons name q ih =>
    obtain ⟨entries, child, rfl, hchild, hrest⟩ := exists_entry hn
    obtain ⟨-, hdirectories⟩ := h
    obtain ⟨hname, hq⟩ := List.forall_mem_cons.mp hq
    exact ih (hdirectories name child hchild hname) hq hrest

/-- The entry that growing goes on with, which is made if it is not there. -/
theorem Sorted.entry (h : Sorted (.directory entries)) (hname : IsBare name) :
    Sorted ((entries.lookup name).getD (.directory [])) := by
  obtain ⟨-, hdirectories⟩ := h
  cases hchild : entries.lookup name with
  | none => exact sorted_empty
  | some child => exact hdirectories name child hchild hname

theorem Sorted.setBare (h : Sorted (.directory entries)) (hname : IsBare name) (hn : Sorted n) :
    Sorted (.directory (setEntry name n entries)) := by
  obtain ⟨hfiles, hdirectories⟩ := h
  refine .directory (fun other child hchild hother => ?_) fun other child hchild hother => ?_
  · have hne : other ≠ name := by
      rintro rfl
      exact hother hname
    rw [lookup_setEntry, if_neg hne] at hchild
    exact hfiles other child hchild hother
  · rw [lookup_setEntry] at hchild
    split at hchild
    · cases hchild
      exact hn
    · exact hdirectories other child hchild hother

theorem Sorted.setFile (h : Sorted (.directory entries)) (hname : ¬ IsBare name) :
    Sorted (.directory (setEntry name (.file content) entries)) := by
  obtain ⟨hfiles, hdirectories⟩ := h
  refine .directory (fun other child hchild hother => ?_) fun other child hchild hother => ?_
  · rw [lookup_setEntry] at hchild
    split at hchild
    · cases hchild
      exact ⟨content, rfl⟩
    · exact hfiles other child hchild hother
  · have hne : other ≠ name := by
      rintro rfl
      exact hname hother
    rw [lookup_setEntry, if_neg hne] at hchild
    exact hdirectories other child hchild hother

/-- What stands under a name with a point in some directory is a file, if anything. -/
theorem Sorted.at?_file (h : Sorted tree) (hq : ∀ name ∈ q, IsBare name) (hname : ¬ IsBare name)
    (hn : tree.at? (q ++ [name]) = some n) : ∃ content, n = .file content := by
  rw [at?_append] at hn
  obtain ⟨m, hm, hentry⟩ := Option.bind_eq_some_iff.mp hn
  obtain ⟨entries, child, rfl, hchild, hrest⟩ := exists_entry hentry
  obtain ⟨hfiles, -⟩ := h.at? hq hm
  rw [at?_nil] at hrest
  exact Option.some.inj hrest ▸ hfiles name child hchild hname

/-- There are no links in such a tree. -/
theorem Sorted.at?_cases (h : Sorted tree) (hn : tree.at? place = some n) :
    (∃ entries, n = .directory entries) ∨ ∃ content, n = .file content := by
  induction place generalizing tree with
  | nil =>
    rw [at?_nil] at hn
    cases hn
    exact .inl h.exists_directory
  | cons name place ih =>
    obtain ⟨entries, child, rfl, hchild, hrest⟩ := exists_entry hn
    obtain ⟨hfiles, hdirectories⟩ := h
    by_cases hname : IsBare name
    · exact ih (hdirectories name child hchild hname) hrest
    · obtain ⟨content, rfl⟩ := hfiles name child hchild hname
      cases place with
      | nil =>
        cases hrest
        exact .inr ⟨content, rfl⟩
      | cons next place => cases hrest

/-! ## Growing -/

theorem grow_cons : grow n (.directory entries) (name :: r) =
    .directory (setEntry name (grow n ((entries.lookup name).getD (.directory [])) r) entries) := rfl

theorem Sorted.grow_directory (h : Sorted tree) (hq : ∀ name ∈ q, IsBare name) :
    Sorted (grow (.directory []) tree q) := by
  induction q generalizing tree with
  | nil =>
    obtain ⟨entries, rfl⟩ := h.exists_directory
    exact h
  | cons name q ih =>
    obtain ⟨entries, rfl⟩ := h.exists_directory
    obtain ⟨hname, hq⟩ := List.forall_mem_cons.mp hq
    exact h.setBare hname (ih (h.entry hname) hq)

theorem Sorted.grow_file (h : Sorted tree) (hq : ∀ name ∈ q, IsBare name) (hname : ¬ IsBare name) :
    Sorted (grow (.file content) tree (q ++ [name])) := by
  induction q generalizing tree with
  | nil =>
    obtain ⟨entries, rfl⟩ := h.exists_directory
    exact h.setFile hname
  | cons other q ih =>
    obtain ⟨entries, rfl⟩ := h.exists_directory
    obtain ⟨hother, hq⟩ := List.forall_mem_cons.mp hq
    exact h.setBare hother (ih (h.entry hother) hq)

/-- A directory is there once it has been grown, with all that was in it. -/
theorem Sorted.at?_grow_directory (h : Sorted tree) (hq : ∀ name ∈ q, IsBare name) :
    (grow (.directory []) tree q).at? q = some ((tree.at? q).getD (.directory [])) := by
  induction q generalizing tree with
  | nil =>
    obtain ⟨entries, rfl⟩ := h.exists_directory
    rfl
  | cons name q ih =>
    obtain ⟨entries, rfl⟩ := h.exists_directory
    obtain ⟨hname, hq⟩ := List.forall_mem_cons.mp hq
    rw [grow_cons, at?_setEntry, if_pos rfl, ih (h.entry hname) hq, at?_cons]
    cases entries.lookup name with
    | some child => rfl
    | none => cases q <;> rfl

theorem Sorted.exists_grown (h : Sorted tree) (hq : ∀ name ∈ q, IsBare name) :
    ∃ entries, (grow (.directory []) tree q).at? q = some (.directory entries) := by
  have hgrown := h.at?_grow_directory hq
  obtain ⟨entries, heq⟩ := ((h.grow_directory hq).at? hq hgrown).exists_directory
  exact ⟨entries, hgrown.trans (congrArg some heq)⟩

/-- Growing can stop on the way. -/
theorem Sorted.grow_append (h : Sorted tree) (hq : ∀ name ∈ q, IsBare name) :
    grow n (grow (.directory []) tree q) (q ++ r) = grow n tree (q ++ r) := by
  induction q generalizing tree with
  | nil =>
    obtain ⟨entries, rfl⟩ := h.exists_directory
    rfl
  | cons name q ih =>
    obtain ⟨entries, rfl⟩ := h.exists_directory
    obtain ⟨hname, hq⟩ := List.forall_mem_cons.mp hq
    rw [grow_cons, List.cons_append, grow_cons, lookup_setEntry, if_pos rfl, Option.getD_some,
      ih (h.entry hname) hq, setEntry_setEntry, ← grow_cons]

/-- Growing by a directory that is there changes nothing. -/
theorem grow_directory_self (h : tree.at? q = some (.directory entries)) :
    grow (.directory []) tree q = tree := by
  induction q generalizing tree with
  | nil =>
    rw [at?_nil] at h
    cases h
    rfl
  | cons name q ih =>
    obtain ⟨siblings, child, rfl, hchild, hrest⟩ := exists_entry h
    rw [grow_cons, hchild, Option.getD_some, ih hrest, setEntry_self hchild]

/-- In a directory that is there, nothing has to be made for a file, nor for a new directory. -/
theorem grow_eq_put (h : tree.at? q = some (.directory entries))
    (hn : (∃ content, n = .file content) ∨ n = .directory [] ∧ entries.lookup name = none) :
    grow n tree (q ++ [name]) = put n tree (q ++ [name]) := by
  induction q generalizing tree with
  | nil =>
    rw [at?_nil] at h
    cases h
    rw [List.nil_append, put_single, grow_cons]
    obtain ⟨content, rfl⟩ | ⟨rfl, hnew⟩ := hn
    · rfl
    · rw [hnew]
      rfl
  | cons other q ih =>
    obtain ⟨siblings, child, rfl, hchild, hrest⟩ := exists_entry h
    rw [List.cons_append, grow_cons, put_cons hchild, hchild, Option.getD_some, ih hrest]

/-- Growing a tree by a file changes which file stands at its place, and at no other. -/
theorem Sorted.at?_grow_file (h : Sorted tree) (hq : ∀ name ∈ q, IsBare name) (hname : ¬ IsBare name) :
    (grow (.file content) tree (q ++ [name])).at? place = some (.file content') ↔
      place = q ++ [name] ∧ content' = content ∨
        place ≠ q ++ [name] ∧ tree.at? place = some (.file content') := by
  induction q generalizing tree place with
  | nil =>
    obtain ⟨entries, rfl⟩ := h.exists_directory
    cases place with
    | nil => simp [grow_cons]
    | cons other rest =>
      rw [List.nil_append, grow_cons, at?_setEntry]
      by_cases hother : other = name
      · subst hother
        cases rest with
        | nil => simp [grow, eq_comm]
        | cons next rest =>
          -- below the name of a file there is nothing, before and after
          have hnone : (Node.directory entries).at? (other :: next :: rest) ≠ some (.file content') := by
            intro hthere
            obtain ⟨_, child, heq, hchild, hrest⟩ := exists_entry hthere
            cases heq
            obtain ⟨hfiles, -⟩ := h
            obtain ⟨_, rfl⟩ := hfiles other child hchild hname
            cases hrest
          rw [if_pos rfl]
          constructor
          · intro hbelow
            cases hbelow
          · rintro (⟨heq, -⟩ | ⟨-, hthere⟩)
            · cases heq
            · exact absurd hthere hnone
      · rw [if_neg hother]
        simp [hother]
  | cons first q ih =>
    obtain ⟨entries, rfl⟩ := h.exists_directory
    obtain ⟨hfirst, hrest⟩ := List.forall_mem_cons.mp hq
    cases place with
    | nil => simp [grow_cons]
    | cons other rest =>
      rw [List.cons_append, grow_cons, at?_setEntry]
      by_cases hother : other = first
      · subst hother
        have hentry : (((entries.lookup other).getD (.directory [])).at? rest = some (.file content')) ↔
            (Node.directory entries).at? (other :: rest) = some (.file content') := by
          rw [at?_cons]
          cases entries.lookup other with
          | some child => rfl
          | none => cases rest <;> simp [Node.at?]
        rw [if_pos rfl, ih (h.entry hfirst) hrest, hentry]
        simp
      · rw [if_neg hother]
        simp [hother]

/-! ## Growing by many files -/

variable {files : List (List String × Content)}

/-- A tree that was grown by files one after the other. -/
def growAll (tree : Node) (files : List (List String × Content)) : Node :=
  files.foldl (fun tree file => grow (.file file.2) tree file.1) tree

/-- The place of a file: bare names, and then its own name with a point in it. -/
def IsFilePlace (place : List String) : Prop :=
  ∃ q name, place = q ++ [name] ∧ (∀ other ∈ q, IsBare other) ∧ ¬ IsBare name

theorem Sorted.growAll (h : Sorted tree) (hfiles : ∀ file ∈ files, IsFilePlace file.1) :
    Sorted (growAll tree files) := by
  induction files generalizing tree with
  | nil => exact h
  | cons file files ih =>
    obtain ⟨⟨q, name, hplace, hq, hname⟩, hrest⟩ := List.forall_mem_cons.mp hfiles
    have hgrown : Sorted (grow (.file file.2) tree (q ++ [name])) := h.grow_file hq hname
    rw [← hplace] at hgrown
    exact ih hgrown hrest

/-- Files at different places all stay, together with those that were there. -/
theorem Sorted.at?_growAll (h : Sorted tree) (hfiles : ∀ file ∈ files, IsFilePlace file.1)
    (hdistinct : (files.map (·.1)).Nodup) :
    (Node.growAll tree files).at? place = some (.file content) ↔
      (place, content) ∈ files ∨
        place ∉ files.map (·.1) ∧ tree.at? place = some (.file content) := by
  induction files generalizing tree with
  | nil => simp [Node.growAll]
  | cons file files ih =>
    obtain ⟨at', content'⟩ := file
    obtain ⟨⟨q, name, hplace, hq, hname⟩, hrest⟩ := List.forall_mem_cons.mp hfiles
    obtain ⟨hnew, hothers⟩ := List.nodup_cons.mp hdistinct
    dsimp only at hplace hnew
    subst hplace
    have hsorted : Sorted (grow (.file content') tree (q ++ [name])) := h.grow_file hq hname
    have hgrown := ih hsorted hrest hothers
    rw [h.at?_grow_file hq hname] at hgrown
    refine hgrown.trans ?_
    rw [List.mem_cons, List.map_cons, List.mem_cons, Prod.mk.injEq, not_or]
    constructor
    · rintro (hmem | ⟨hother, ⟨rfl, rfl⟩ | ⟨hne, hthere⟩⟩)
      · exact .inl (.inr hmem)
      · exact .inl (.inl ⟨rfl, rfl⟩)
      · exact .inr ⟨⟨hne, hother⟩, hthere⟩
    · rintro ((⟨rfl, rfl⟩ | hmem) | ⟨⟨hne, hother⟩, hthere⟩)
      · exact .inr ⟨hnew, .inl ⟨rfl, rfl⟩⟩
      · exact .inl hmem
      · exact .inr ⟨hother, .inr ⟨hne, hthere⟩⟩

/-- What grew from nothing has the files that were added, and nothing else but directories. -/
theorem at?_growAll_empty (hfiles : ∀ file ∈ files, IsFilePlace file.1)
    (hdistinct : (files.map (·.1)).Nodup) (hn : ∀ entries, n ≠ .directory entries) :
    (growAll (.directory []) files).at? place = some n ↔
      ∃ content, n = .file content ∧ (place, content) ∈ files := by
  have hempty {content : Content} : (Node.directory []).at? place ≠ some (.file content) := by
    cases place <;> simp [Node.at?]
  have hfile {content : Content} :
      (growAll (.directory []) files).at? place = some (.file content) ↔ (place, content) ∈ files :=
    (sorted_empty.at?_growAll hfiles hdistinct).trans (or_iff_left fun h => hempty h.2)
  constructor
  · intro hthere
    obtain ⟨entries, rfl⟩ | ⟨content, rfl⟩ := (sorted_empty.growAll hfiles).at?_cases hthere
    · exact absurd rfl (hn entries)
    · exact ⟨content, rfl, hfile.mp hthere⟩
  · rintro ⟨content, rfl, hmem⟩
    exact hfile.mpr hmem

end Sorted

end ClassAtlas.Files.Node
