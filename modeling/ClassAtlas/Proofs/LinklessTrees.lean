import ClassAtlas.Proofs.WrittenFiles

/-! # Trees without links

In a tree without links a path spells out the place to which it leads: each name that counts goes down, and
a double point goes up again. A file that was reached by a path is reached by it as long as directories and
files stay what they are, whatever else comes into the tree. -/

namespace ClassAtlas.Files

open ClassAtlas.Path (IsIdle counts counts_eq_false_iff names)

namespace Node

/-! ## What stands at other places -/

section Putting

variable {n top : Node} {entries : List (String × Node)} {name : String} {dir place rest : List String}

/-- What is put into a directory stands there under its name. -/
theorem at?_put_entry (h : top.at? dir = some (.directory entries)) :
    (put n top (dir ++ [name])).at? (dir ++ [name] ++ rest) = n.at? rest := by
  rw [put_append h, put_single, List.append_assoc, at?_append, at?_put h, Option.bind_some,
    List.singleton_append, at?_setEntry, if_pos rfl]

/-- Elsewhere nothing changes, but that a directory on the way there has other entries. -/
theorem at?_put_other (h : top.at? dir = some (.directory entries)) (hother : ¬ dir ++ [name] <+: place) :
    (put n top (dir ++ [name])).at? place = top.at? place ∨
      (∃ old, top.at? place = some (.directory old)) ∧
        ∃ new, (put n top (dir ++ [name])).at? place = some (.directory new) := by
  induction dir generalizing top place with
  | nil =>
    rw [at?_nil] at h
    cases h
    rw [List.nil_append, put_single]
    cases place with
    | nil => exact .inr ⟨⟨_, at?_nil⟩, ⟨_, at?_nil⟩⟩
    | cons other place =>
      have hne : other ≠ name := by
        rintro rfl
        exact hother ⟨place, rfl⟩
      rw [at?_setEntry, if_neg hne]
      exact .inl rfl
  | cons first dir ih =>
    obtain ⟨siblings, child, rfl, hchild, hdir⟩ := exists_entry h
    rw [List.cons_append, put_cons hchild]
    cases place with
    | nil => exact .inr ⟨⟨_, at?_nil⟩, ⟨_, at?_nil⟩⟩
    | cons other place =>
      rw [at?_setEntry]
      split
      · rename_i hsame
        subst hsame
        have hrest : ¬ dir ++ [name] <+: place := by
          rintro ⟨more, rfl⟩
          exact hother ⟨more, by simp⟩
        rw [at?_cons, hchild, Option.bind_some]
        exact ih hdir hrest
      · exact .inl rfl

end Putting

/-! ## Growing without links -/

/-- A tree of directories and files. -/
structure Linkless (top : Node) : Prop where
  directory : ∃ entries, top = .directory entries
  noLink : ∀ place target, top.at? place ≠ some (.link target)

/-- What the file at a place holds, if there is one. -/
def contentAt? (top : Node) (place : List String) : Option Content :=
  match top.at? place with
  | some (.file content) => some content
  | _ => none

/-- Directories and files are still what they were, no links have come, and but for some places all files
hold what they held. -/
structure Grown (touched : List String → Prop) (top top' : Node) : Prop where
  directory : ∀ place entries, top.at? place = some (.directory entries) →
    ∃ entries', top'.at? place = some (.directory entries')
  file : ∀ place content, top.at? place = some (.file content) →
    ∃ content', top'.at? place = some (.file content')
  content : ∀ place, ¬ touched place → top'.contentAt? place = top.contentAt? place
  link : ∀ place target, top'.at? place = some (.link target) → top.at? place = some (.link target)

/-- Nothing but directories has come. -/
def nowhere : List String → Prop := fun _ => False

section Growing

variable {top mid top' : Node} {touched other : List String → Prop} {place : List String}

theorem contentAt?_eq_some {content : Content} :
    top.contentAt? place = some content ↔ top.at? place = some (.file content) := by
  unfold contentAt?
  split
  · rename_i hthere
    rw [hthere, Option.some.injEq, Option.some.injEq, Node.file.injEq]
  · rename_i hnone
    constructor
    · intro h
      cases h
    · exact fun h => absurd h (hnone content)

theorem grown_refl (touched : List String → Prop) (top : Node) : Grown touched top top :=
  ⟨fun _ entries h => ⟨entries, h⟩, fun _ content h => ⟨content, h⟩, fun _ _ => rfl, fun _ _ h => h⟩

theorem Grown.trans (h : Grown touched top mid) (h' : Grown touched mid top') :
    Grown touched top top' where
  directory place entries hplace := by
    obtain ⟨entries', hmid⟩ := h.directory place entries hplace
    exact h'.directory place entries' hmid
  file place content hplace := by
    obtain ⟨content', hmid⟩ := h.file place content hplace
    exact h'.file place content' hmid
  content place hplace := (h'.content place hplace).trans (h.content place hplace)
  link place target hplace := h.link place target (h'.link place target hplace)

theorem Grown.mono (h : Grown touched top top') (hsub : ∀ place, touched place → other place) :
    Grown other top top' :=
  ⟨h.directory, h.file, fun place hplace => h.content place (mt (hsub place) hplace), h.link⟩

theorem Grown.linkless (h : Grown touched top top') (hlinkless : top.Linkless) : top'.Linkless := by
  obtain ⟨entries, rfl⟩ := hlinkless.directory
  obtain ⟨entries', hentries'⟩ := h.directory [] entries at?_nil
  rw [at?_nil] at hentries'
  exact ⟨⟨entries', Option.some.inj hentries'⟩,
    fun place target hplace => hlinkless.noLink place target (h.link place target hplace)⟩

theorem Grown.keeps (h : Grown touched top top') (hlinkless : top.Linkless) : Keeps top top' :=
  ⟨h.directory, fun place target hplace => absurd hplace (hlinkless.noLink place target)⟩

variable {n : Node} {entries : List (String × Node)} {name : String} {dir : List String}

/-- A node with nothing in it. -/
def IsBlank (n : Node) : Prop := n = .directory [] ∨ ∃ content, n = .file content

theorem IsBlank.at?_eq (h : n.IsBlank) {rest : List String} {m : Node} (hm : n.at? rest = some m) :
    rest = [] ∧ m = n := by
  cases rest with
  | nil =>
    rw [at?_nil] at hm
    exact ⟨rfl, (Option.some.inj hm).symm⟩
  | cons name rest =>
    obtain rfl | ⟨content, rfl⟩ := h <;> cases hm

variable (h : top.at? dir = some (.directory entries)) (hn : n.IsBlank)
  (hold : ∀ old, top.at? (dir ++ [name]) = some old →
    (∃ content, old = .file content) ∧ ∃ content, n = .file content)

include h hn hold

/-- A directory or a file is put where there was nothing, or a file in the place of a file. Then it stands
there, and elsewhere nothing changes but the entries of directories. -/
theorem put_cases (place : List String) :
    (place = dir ++ [name] ∧ (put n top (dir ++ [name])).at? place = some n) ∨
      (put n top (dir ++ [name])).at? place = top.at? place ∨
      (∃ old, top.at? place = some (.directory old)) ∧
        ∃ new, (put n top (dir ++ [name])).at? place = some (.directory new) := by
  by_cases hprefix : dir ++ [name] <+: place
  · obtain ⟨rest, rfl⟩ := hprefix
    rw [at?_put_entry h]
    cases rest with
    | nil => exact .inl ⟨List.append_nil _, at?_nil⟩
    | cons first rest =>
      -- there is nothing below the node, and nothing was below the one before it
      have hnew : n.at? (first :: rest) = none := Option.eq_none_iff_forall_ne_some.mpr fun m hm =>
        List.cons_ne_nil _ _ (hn.at?_eq hm).1
      have hnone : top.at? (dir ++ [name] ++ first :: rest) = none := by
        rw [at?_append]
        cases hthere : top.at? (dir ++ [name]) with
        | none => rfl
        | some old =>
          obtain ⟨⟨content, rfl⟩, -⟩ := hold old hthere
          rfl
      exact .inr (.inl (hnew.trans hnone.symm))
  · exact .inr (at?_put_other h hprefix)

theorem grown_put (htouched : (∃ content, n = .file content) → touched (dir ++ [name])) :
    Grown touched top (put n top (dir ++ [name])) := by
  constructor
  · intro place siblings hplace
    rcases put_cases h hn hold place with ⟨rfl, -⟩ | hsame | ⟨-, hnew⟩
    · obtain ⟨⟨_, hfile⟩, -⟩ := hold _ hplace
      cases hfile
    · exact ⟨siblings, hsame.trans hplace⟩
    · exact hnew
  · intro place content hplace
    rcases put_cases h hn hold place with ⟨rfl, hput⟩ | hsame | ⟨⟨_, hdirectory⟩, -⟩
    · obtain ⟨-, content', rfl⟩ := hold _ hplace
      exact ⟨content', hput⟩
    · exact ⟨content, hsame.trans hplace⟩
    · cases hplace.symm.trans hdirectory
  · intro place hplace
    rcases put_cases h hn hold place with ⟨rfl, hput⟩ | hsame | ⟨⟨_, hdirectory⟩, ⟨_, hnew⟩⟩
    · obtain rfl | hfile := hn
      · have hnone : top.at? (dir ++ [name]) = none := by
          refine Option.eq_none_iff_forall_ne_some.mpr fun old hthere => ?_
          obtain ⟨-, _, hfile⟩ := hold old hthere
          cases hfile
        rw [contentAt?, contentAt?, hput, hnone]
      · exact absurd (htouched hfile) hplace
    · rw [contentAt?, contentAt?, hsame]
    · rw [contentAt?, contentAt?, hdirectory, hnew]
  · intro place target hlink
    rcases put_cases h hn hold place with ⟨-, hput⟩ | hsame | ⟨-, ⟨_, hnew⟩⟩
    · cases hput.symm.trans hlink
      obtain heq | ⟨_, heq⟩ := hn <;> cases heq
    · exact hsame.symm.trans hlink
    · cases hlink.symm.trans hnew

end Growing

end Node

/-! ## Places that paths spell out -/

/-- Where a name leads from a place. -/
def stepTo (place : List String) (name : String) : List String :=
  if counts name then if name = ".." then place.dropLast else place ++ [name] else place

/-- The place that a path spells out. -/
def spelled (path : String) : List String := (names path).foldl stepTo []

section Spelling

variable {top : Node} {n : Nat} {place goal : List String} {ns : List String} {name : String}

theorem stepTo_idle (h : IsIdle name) : stepTo place name = place := by
  rw [stepTo, counts_eq_false_iff.mpr h, if_neg Bool.false_ne_true]

theorem stepTo_up : stepTo place ".." = place.dropLast := rfl

theorem stepTo_down (hcounts : counts name = true) (hup : name ≠ "..") :
    stepTo place name = place ++ [name] := by
  rw [stepTo, if_pos hcounts, if_neg hup]

theorem foldl_stepTo_filter : (ns.filter counts).foldl stepTo place = ns.foldl stepTo place := by
  induction ns generalizing place with
  | nil => rfl
  | cons name ns ih =>
    cases hcounts : counts name with
    | true => rw [List.filter_cons_of_pos hcounts, List.foldl_cons, List.foldl_cons, ih]
    | false =>
      have hidle : stepTo place name = place := stepTo_idle (counts_eq_false_iff.mp hcounts)
      rw [List.filter_cons_of_neg (Bool.eq_false_iff.mp hcounts), List.foldl_cons, hidle, ih]

/-- Names without double points spell out themselves. -/
theorem foldl_stepTo_down (h : ∀ name ∈ ns, counts name = true ∧ name ≠ "..") :
    ns.foldl stepTo place = place ++ ns := by
  induction ns generalizing place with
  | nil => rw [List.foldl_nil, List.append_nil]
  | cons name ns ih =>
    obtain ⟨⟨hcounts, hup⟩, hns⟩ := List.forall_mem_cons.mp h
    rw [List.foldl_cons, stepTo_down hcounts hup, ih hns, List.append_assoc, List.singleton_append]

/-- Without links, walks lead where their names say. -/
theorem Leads.eq_foldl (hlinkless : top.Linkless) (h : Leads top n place ns goal) :
    goal = ns.foldl stepTo place := by
  induction h with
  | here _ => rfl
  | idle hname _ ih => rw [List.foldl_cons, stepTo_idle hname, ← ih]
  | up _ ih => rw [List.foldl_cons, stepTo_up, ← ih]
  | down hname _ _ ih => rw [List.foldl_cons, stepTo_down hname.counts hname.notUp, ← ih]
  | jump _ hentry _ _ => exact absurd hentry (hlinkless.noLink _ _)

end Spelling

/-! ## Walks to entries -/

/-- An arrival at a file, or at a free place. -/
def arriving (goal : List String) : Option Content → Arrival
  | none => .free goal
  | some content => .present goal (.file content)

/-- A path ends with the name of an entry in a directory, whether the entry is there or not. -/
structure Enters (top : Node) (path : String) (dir : List String) (name : String) : Prop where
  clean : '\x00' ∉ path.toList
  nonempty : path ≠ ""
  ordinary : Ordinary name
  pieces : ∃ before, path.splitOn "/" = before ++ [name] ∧ Leads top mostLinks [] before dir

section Entries

variable {top top' : Node} {follow : Bool} {n : Nat} {place goal dir ns : List String}
  {path name : String} {c : Option Content} {touched : List String → Prop}

/-- A walk to a file or a free place leads to a directory first, and to an entry of it then. Only empty
names can follow. -/
theorem entry_of_walk (hlinkless : top.Linkless)
    (hplace : ∃ entries, top.at? place = some (.directory entries))
    (h : walkLinks top follow n place ns = .ok (arriving goal c)) :
    ∃ before name after dir, ns = before ++ name :: after ∧ (∀ other ∈ after, other = "") ∧
      Leads top n place before dir ∧ Ordinary name ∧ goal = dir ++ [name] ∧
      top.at? goal = c.map .file ∧ (c ≠ none → after = []) := by
  induction ns generalizing place with
  | nil =>
    obtain ⟨entries, hplace⟩ := hplace
    rw [walkLinks_eq, walk, hplace] at h
    cases c <;> cases h
  | cons first rest ih =>
    rw [walkLinks_eq] at h ih
    rcases name_cases first with hidle | rfl | hfirst | ⟨hidle, hup, hlong⟩
    · rw [walk_idle hidle] at h
      obtain ⟨before, name, after, dir, rfl, hafter, hleads, hrest⟩ := ih hplace h
      exact ⟨first :: before, name, after, dir, rfl, hafter, .idle hidle hleads, hrest⟩
    · rw [walk_up] at h
      obtain ⟨entries, hplace⟩ := hplace
      obtain ⟨before, name, after, dir, rfl, hafter, hleads, hrest⟩ := ih (Leads.at?_dropLast hplace) h
      exact ⟨".." :: before, name, after, dir, rfl, hafter, .up hleads, hrest⟩
    · rw [walk_ordinary hfirst] at h
      cases hentry : top.at? (place ++ [first]) with
      | none =>
        rw [hentry] at h
        dsimp only at h
        split at h
        · rename_i hempty
          cases c with
          | none =>
            cases h
            refine ⟨[], first, rest, place, rfl, ?_, .here hplace, hfirst, rfl, hentry,
              fun hne => absurd rfl hne⟩
            simpa using hempty
          | some content => cases h
        · cases h
      | some entry =>
        rw [hentry] at h
        cases entry with
        | directory entries =>
          obtain ⟨before, name, after, dir, rfl, hafter, hleads, hrest⟩ := ih ⟨entries, hentry⟩ h
          exact ⟨first :: before, name, after, dir, rfl, hafter, .down hfirst ⟨entries, hentry⟩ hleads,
            hrest⟩
        | file content =>
          dsimp only at h
          split at h
          · rename_i hempty
            obtain rfl := List.isEmpty_iff.mp hempty
            cases c with
            | none => cases h
            | some content' =>
              cases h
              exact ⟨[], first, [], place, rfl, List.forall_mem_nil _, .here hplace, hfirst, rfl, hentry,
                fun _ => rfl⟩
          · cases h
        | link target => exact absurd hentry (hlinkless.noLink _ _)
    · rw [walk_long hidle hup hlong] at h
      cases h

theorem Node.Linkless.at?_top (h : top.Linkless) : ∃ entries, top.at? [] = some (.directory entries) := by
  obtain ⟨entries, rfl⟩ := h.directory
  exact ⟨entries, Node.at?_nil⟩

/-- A path that ends with an empty name has a slash at its end. -/
theorem endsWith_of_splitOn {before : List String} (hne : before ≠ [])
    (h : path.splitOn "/" = before ++ [""]) : path.endsWith "/" = true := by
  obtain ⟨start, rfl, -⟩ := Path.exists_of_splitOn Path.separates_slash h hne
  exact Path.endsWith_slash.mpr ⟨start.toList, by simp⟩

/-- A path that leads to a file, or to a free place and has no slash at its end, ends with a name. -/
theorem enters_of_locate (hlinkless : top.Linkless) (h : locate top true path = .ok (arriving goal c))
    (hend : c = none → path.endsWith "/" = false) :
    ∃ dir name, Enters top path dir name ∧ goal = dir ++ [name] ∧ top.at? goal = c.map .file := by
  obtain ⟨hclean, hne, hwalk⟩ := walk_of_locate h
  obtain ⟨before, name, after, dir, hpieces, hafter, hleads, hname, hgoal, hthere, hlast⟩ :=
    entry_of_walk hlinkless hlinkless.at?_top hwalk
  have hnone : after = [] := by
    cases hcontent : c with
    | some content => exact hlast (by simp [hcontent])
    | none =>
      rcases List.eq_nil_or_concat' after with rfl | ⟨after, last, rfl⟩
      · rfl
      · obtain rfl := hafter last (by simp)
        rw [← List.cons_append, ← List.append_assoc] at hpieces
        rw [endsWith_of_splitOn (by simp) hpieces] at hend
        cases hend hcontent
  subst hnone
  exact ⟨dir, name, ⟨hclean, hne, hname, before, hpieces, hleads⟩, hgoal, hthere⟩

theorem Enters.exists_directory (h : Enters top path dir name) :
    ∃ entries, top.at? dir = some (.directory entries) := by
  obtain ⟨before, -, hleads⟩ := h.pieces
  exact hleads.exists_directory

theorem Enters.grown (h : Enters top path dir name) (hlinkless : top.Linkless)
    (hgrown : Node.Grown touched top top') : Enters top' path dir name := by
  obtain ⟨before, hpieces, hleads⟩ := h.pieces
  exact ⟨h.clean, h.nonempty, h.ordinary, before, hpieces, hleads.mono (hgrown.keeps hlinkless)⟩

/-- A file is found under its name, and a free place is. -/
theorem Enters.locate_eq (h : Enters top path dir name)
    (hthere : top.at? (dir ++ [name]) = c.map .file) :
    locate top true path = .ok (arriving (dir ++ [name]) c) := by
  obtain ⟨before, hpieces, hleads⟩ := h.pieces
  obtain ⟨m, hm⟩ : ∃ m, walkLinks top true mostLinks [] (before ++ [name]) =
      walkLinks top true m dir [name] := hleads.walk (.inr rfl)
  rw [locate_eq_ok h.clean h.nonempty, hpieces, hm, walkLinks_eq, walk_ordinary h.ordinary, hthere]
  cases c <;> rfl

/-- The place of the entry is the one that the path spells out. -/
theorem Enters.eq_spelled (h : Enters top path dir name) (hlinkless : top.Linkless) :
    dir ++ [name] = spelled path := by
  obtain ⟨before, hpieces, hleads⟩ := h.pieces
  rw [spelled, Path.names_eq, foldl_stepTo_filter, hpieces, List.foldl_append, List.foldl_cons,
    List.foldl_nil, ← hleads.eq_foldl hlinkless, stepTo_down h.ordinary.counts h.ordinary.notUp]

end Entries

end ClassAtlas.Files
