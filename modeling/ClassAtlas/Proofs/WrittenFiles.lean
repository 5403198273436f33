import ClassAtlas.Files.Output
import ClassAtlas.Proofs.SuccessfulReading
import ClassAtlas.Proofs.Walks

/-! # What is below a directory after files were written there

While files are written below a directory that was empty, the disk stays as it was but for the tree in
that directory. Making directories grows this tree by them, and writing a file grows it by the file. On
a disk where nothing befalls a change, none of this fails. -/

namespace ClassAtlas.Files

open Document (Makes makes_bind makes_modifyGet mapError_eq_ok)
open ClassAtlas.Path (Below names)

/-! ## Work that fails, and work that is tried -/

section Tried

variable {ε σ α : Type} {s s' : σ} {a : α} {e : ε}

/-- Work that fails in this way, and leaves this of what it works on. -/
def Fails (work : ExceptT ε (StateM σ) α) (s : σ) (e : ε) (s' : σ) : Prop :=
  work.run.run s = (.error e, s')

theorem run_tryCatch {work : ExceptT ε (StateM σ) α} {handler : ε → ExceptT ε (StateM σ) α} :
    (tryCatch work handler).run.run s = match work.run.run s with
      | (.ok a, t) => (.ok a, t)
      | (.error e, t) => (handler e).run.run t := by
  show (work.run >>= fun
    | .ok a => pure (.ok a)
    | .error e => (handler e).run).run s = _
  rw [StateT.run_bind]
  rcases work.run.run s with ⟨a | a, t⟩ <;> rfl

theorem makes_tryCatch {work : ExceptT ε (StateM σ) α} {handler : ε → ExceptT ε (StateM σ) α}
    (h : Makes work s a s') : Makes (tryCatch work handler) s a s' := by
  rw [Makes, run_tryCatch, h]

theorem makes_of_fails {work : ExceptT ε (StateM σ) α} {handler : ε → ExceptT ε (StateM σ) α}
    {t : σ} (hfails : Fails work s e t) (h : Makes (handler e) t a s') :
    Makes (tryCatch work handler) s a s' := by
  rw [Makes, run_tryCatch, hfails]
  exact h

theorem fails_bind {β : Type} {work : ExceptT ε (StateM σ) α} {next : α → ExceptT ε (StateM σ) β}
    (h : Fails work s e s') : Fails (work >>= next) s e s' := by
  rw [Fails, Document.run_bind_eq, h]

theorem fails_after {β : Type} {work : ExceptT ε (StateM σ) α} {next : α → ExceptT ε (StateM σ) β}
    {t : σ} (h : Makes work s a t) (hnext : Fails (next a) t e s') : Fails (work >>= next) s e s' := by
  rw [Fails, Document.run_bind_eq, h]
  exact hnext

theorem fails_asOutput {failure : AccessError → OutputError} {work : DiskWork α} {d d' : Disk}
    {error : SystemError} {path : String} (h : Fails work d (.system error path) d') :
    Fails (asOutput failure work) d (failure (.system error path)) d' := by
  show ((Except.mapError _ <$> work.run : StateM Disk _)).run d = _
  rw [StateT.run_map, h]
  rfl

theorem makes_asOutput {failure : AccessError → OutputError} {work : DiskWork α} {d d' : Disk}
    (h : Makes work d a d') : Makes (asOutput failure work) d a d' := by
  show ((Except.mapError _ <$> work.run : StateM Disk _)).run d = _
  rw [StateT.run_map, h]
  rfl

end Tried

/-! ## Reaching places -/

section Reaching

variable {d : Disk} {top : Node} {follow : Bool} {path : String} {goal : List String}
  {found : Except AccessError Arrival}

theorem admitted_eq_ok {arrival : Arrival} : admitted path found = .ok arrival ↔
    path.utf8ByteSize ≤ longestPath ∧ found = .ok arrival := by
  unfold admitted
  split
  · simp
  · rw [ite_eq_iff]
    simp

theorem admitted_short (h : path.utf8ByteSize ≤ longestPath) : admitted path found = found := by
  unfold admitted
  split
  · rfl
  · exact if_neg (Nat.not_lt.mpr h)

/-- What goes wrong is what went wrong before, or a path that is too long. -/
theorem admitted_error {e : AccessError} (h : admitted path found = .error e) :
    e = .system .nameTooLong path ∨ found = .error e := by
  unfold admitted at h
  split at h
  · exact .inr h
  · split at h
    · cases h
      exact .inl rfl
    · exact .inr h

theorem locate_eq (hclean : '\x00' ∉ path.toList) (hne : path ≠ "") : locate top follow path =
    (walkLinks top follow mostLinks [] (path.splitOn "/")).mapError fun e => .system e path := by
  rw [locate, if_neg (by simpa using hclean), if_neg (by simpa using hne)]

/-- Without null characters, only the system refuses a path. -/
theorem locate_error {e : AccessError} (h : locate top follow path = .error e) :
    e = .nullCharacter ∧ '\x00' ∈ path.toList ∨ ∃ error, e = .system error path := by
  rw [locate] at h
  split at h
  · rename_i hnull
    cases h
    exact .inl ⟨rfl, by simpa using hnull⟩
  · split at h
    · cases h
      exact .inr ⟨_, rfl⟩
    · cases hwalk : walkLinks top follow mostLinks [] (path.splitOn "/") with
      | error error =>
        rw [hwalk] at h
        cases h
        exact .inr ⟨_, rfl⟩
      | ok arrival =>
        rw [hwalk] at h
        cases h

theorem admitted_nameTooLong : admitted path (.error (.system .nameTooLong path)) =
    .error (.system .nameTooLong path) := ite_self _

theorem admitted_long (hclean : '\x00' ∉ path.toList) (h : longestPath < path.utf8ByteSize) :
    admitted path (locate top follow path) = .error (.system .nameTooLong path) := by
  unfold admitted
  split
  · rename_i hfound
    obtain ⟨-, hnull⟩ | ⟨_, hsystem⟩ := locate_error hfound
    · exact absurd hnull hclean
    · cases hsystem
  · exact if_pos h

theorem locate_eq_ok (hclean : '\x00' ∉ path.toList) (hne : path ≠ "") {arrival : Arrival} :
    locate top follow path = .ok arrival ↔
      walkLinks top follow mostLinks [] (path.splitOn "/") = .ok arrival := by
  rw [locate_eq hclean hne, mapError_eq_ok]

theorem walk_of_locate {arrival : Arrival} (h : locate top follow path = .ok arrival) :
    '\x00' ∉ path.toList ∧ path ≠ "" ∧
      walkLinks top follow mostLinks [] (path.splitOn "/") = .ok arrival := by
  have hclean : '\x00' ∉ path.toList := by
    intro hnull
    rw [locate, if_pos (by simpa using hnull)] at h
    cases h
  have hne : path ≠ "" := by
    intro hempty
    rw [locate, if_neg (by simpa using hclean), if_pos (by simpa using hempty)] at h
    cases h
  exact ⟨hclean, hne, (locate_eq_ok hclean hne).mp h⟩

theorem node?_eq_some {n : Node} : d.node? path = some n ↔
    path.utf8ByteSize ≤ longestPath ∧ ∃ goal, locate d.top true path = .ok (.present goal n) := by
  rw [Disk.node?]
  constructor
  · intro h
    split at h
    · rename_i goal n' hlocate
      cases h
      obtain ⟨hshort, hlocate⟩ := admitted_eq_ok.mp hlocate
      exact ⟨hshort, goal, hlocate⟩
    · cases h
  · rintro ⟨hshort, goal, hlocate⟩
    rw [admitted_short hshort, hlocate]

theorem exists_locate {n : Node} (h : d.node? path = some n) :
    ∃ goal, locate d.top true path = .ok (.present goal n) := (node?_eq_some.mp h).2

theorem node?_of_walk (hclean : '\x00' ∉ path.toList) (hne : path ≠ "")
    (hshort : path.utf8ByteSize ≤ longestPath) {n : Node}
    (h : walkLinks d.top true mostLinks [] (path.splitOn "/") = .ok (.present goal n)) :
    d.node? path = some n :=
  node?_eq_some.mpr ⟨hshort, goal, (locate_eq_ok hclean hne).mpr h⟩

/-- A directory at the top is found by its name. -/
theorem node?_top {name : String} (hname : Ordinary name) (hpart : Path.IsPart name)
    (hclean : '\x00' ∉ name.toList) (entries : List (String × Node)) :
    ({ top := .directory [(name, .directory entries)] } : Disk).node? name =
      some (.directory entries) := by
  have hentry : (Node.directory [(name, .directory entries)]).at? [name] =
      some (.directory entries) := by simp [Node.at?]
  have hwalk : walkLinks (.directory [(name, .directory entries)]) true mostLinks [] (name.splitOn "/") =
      .ok (.present [name] (.directory entries)) := by
    rw [Path.splitOn_piece Path.separates_slash hpart.plain, walkLinks_eq, walk_ordinary hname,
      List.nil_append, hentry]
    simp only [walk, hentry]
  exact node?_of_walk hclean hpart.nonempty (hname.short.trans (by decide)) hwalk

/-- The disk has a directory at the end of a path. -/
def HasDirectory (d : Disk) (path : String) : Prop :=
  ∃ entries, d.node? path = some (.directory entries)

theorem hasDirectory_of_leads (hclean : '\x00' ∉ path.toList) (hne : path ≠ "")
    (hshort : path.utf8ByteSize ≤ longestPath) (h : Leads d.top mostLinks [] (names path) goal) :
    HasDirectory d path := by
  have hleads := Leads.splitOn_iff.mpr h
  obtain ⟨entries, hthere⟩ := hleads.exists_directory
  exact ⟨entries, node?_of_walk hclean hne hshort (by rw [hleads.walk_here, hthere])⟩

end Reaching

/-! ## A root that was empty -/

/-- A path that leads to a place where an empty directory stands. -/
structure Fresh (top : Node) (root : String) (place : List String) : Prop where
  nonempty : root ≠ ""
  clean : '\x00' ∉ root.toList
  short : root.utf8ByteSize ≤ longestPath
  leads : Leads top mostLinks [] (names root) place
  empty : top.at? place = some (.directory [])

/-- The disk is as it was, but at the place there is a tree now, with points in the names of its files
alone; and nothing befalls a change. -/
structure Holds (top : Node) (place : List String) (d : Disk) (tree : Node) : Prop where
  top : d.top = Node.put tree top place
  calm : ∀ n, d.mishap n = none
  sorted : tree.Sorted

/-- Names that entries can have which are directories. -/
def AreDirectories (q : List String) : Prop := ∀ name ∈ q, Ordinary name ∧ Node.IsBare name

section Below

variable {d : Disk} {top tree : Node} {root path name : String} {place q before : List String}
  {entries : List (String × Node)}

theorem exists_fresh (h : d.node? root = some (.directory [])) : ∃ place, Fresh d.top root place := by
  obtain ⟨place, hlocate⟩ := exists_locate h
  obtain ⟨hclean, hne, hwalk⟩ := walk_of_locate hlocate
  have hleads := leads_of_walk hwalk
  refine ⟨place, hne, hclean, (node?_eq_some.mp h).1, Leads.splitOn_iff.mp hleads, ?_⟩
  rw [hleads.walk_here] at hwalk
  split at hwalk
  · rename_i hthere
    cases hwalk
    exact hthere
  · cases hwalk

theorem AreDirectories.ordinary (h : AreDirectories q) : ∀ name ∈ q, Ordinary name :=
  fun name hmem => (h name hmem).1

theorem AreDirectories.bare (h : AreDirectories q) : ∀ name ∈ q, Node.IsBare name :=
  fun name hmem => (h name hmem).2

variable (hfresh : Fresh top root place) (h : Holds top place d tree)

include hfresh h

theorem Holds.at? : d.top.at? (place ++ q) = tree.at? q := by
  rw [h.top, Node.at?_append, Node.at?_put hfresh.empty, Option.bind_some]

theorem Holds.at?_root : d.top.at? place = some tree := by
  rw [h.top, Node.at?_put hfresh.empty]

theorem Holds.leads : Leads d.top mostLinks [] (names root) place := by
  obtain ⟨entries, hentries⟩ := h.sorted.exists_directory
  rw [h.top, hentries]
  exact hfresh.leads.mono (Node.keeps_put hfresh.empty)

theorem Holds.leads_before (hbefore : before.filter Path.counts = names root) :
    Leads d.top mostLinks [] before place := by
  have hroot : Leads d.top mostLinks [] (root.splitOn "/") place :=
    Leads.splitOn_iff.mpr (h.leads hfresh)
  exact hroot.congr_names hbefore

/-- Names below the root lead to the directories of the tree. -/
theorem Holds.leads_append (hbefore : before.filter Path.counts = names root)
    (hq : ∀ name ∈ q, Ordinary name) (hthere : tree.at? q = some (.directory entries)) :
    Leads d.top mostLinks [] (before ++ q) (place ++ q) :=
  (h.leads_before hfresh hbefore).append fun _ => .descend hq ((h.at? hfresh).trans hthere)

theorem Holds.leads_below (hpath : Below root path q) (hq : ∀ name ∈ q, Ordinary name)
    (hthere : tree.at? q = some (.directory entries)) :
    Leads d.top mostLinks [] (path.splitOn "/") (place ++ q) := by
  obtain ⟨before, -, hsplit, hbefore⟩ := hpath.pieces
  rw [hsplit]
  exact h.leads_append hfresh hbefore hq hthere

/-- In a directory of the tree, a path leads to the entry of its last name, or to the place for one. -/
theorem Holds.locate_entry (follow : Bool) (hpath : Below root path (q ++ [name]))
    (hclean : '\x00' ∉ path.toList) (hq : ∀ name ∈ q, Ordinary name) (hname : Ordinary name)
    (hthere : tree.at? q = some (.directory entries))
    (hentry : ∀ target, tree.at? (q ++ [name]) ≠ some (.link target)) :
    locate d.top follow path = .ok (match tree.at? (q ++ [name]) with
      | some n => .present (place ++ (q ++ [name])) n
      | none => .free (place ++ (q ++ [name]))) := by
  obtain ⟨before, -, hsplit, hbefore⟩ := hpath.pieces
  obtain ⟨m, hm⟩ : ∃ m, walkLinks d.top follow mostLinks [] (before ++ q ++ [name]) =
      walkLinks d.top follow m (place ++ q) [name] :=
    (h.leads_append hfresh hbefore hq hthere).walk (.inl (List.cons_ne_nil name []))
  have hplace : d.top.at? (place ++ q ++ [name]) = tree.at? (q ++ [name]) := by
    rw [List.append_assoc]
    exact h.at? hfresh
  rw [locate_eq hclean hpath.nonempty, hsplit, ← List.append_assoc, hm, walkLinks_eq,
    walk_ordinary hname, hplace, List.append_assoc]
  cases hn : tree.at? (q ++ [name]) with
  | none => rfl
  | some n =>
    cases n with
    | file content => rfl
    | link target => exact absurd hn (hentry target)
    | directory entries =>
      have hplace' : d.top.at? (place ++ (q ++ [name])) = some (.directory entries) :=
        (h.at? hfresh).trans hn
      simp only [walk, hplace']
      rfl

end Below

/-- Where a walk by names of directories ends, there is one in the tree. -/
theorem exists_directory_of_walk {top tree n : Node} {follow : Bool}
    {jump : List String → List String → Except SystemError Arrival} {place q goal : List String}
    (hthere : top.at? place = some tree) (hsorted : tree.Sorted) (hq : AreDirectories q)
    (h : walk top follow jump place q = .ok (.present goal n)) :
    ∃ entries, tree.at? q = some (.directory entries) := by
  induction q generalizing place tree with
  | nil =>
    obtain ⟨entries, rfl⟩ := hsorted.exists_directory
    exact ⟨entries, Node.at?_nil⟩
  | cons name q ih =>
    obtain ⟨⟨hname, hbare⟩, hrest⟩ := List.forall_mem_cons.mp hq
    have hsame : top.at? (place ++ [name]) = tree.at? [name] := by
      rw [Node.at?_append, hthere, Option.bind_some]
    rw [walk_ordinary hname, hsame] at h
    cases hchild : tree.at? [name] with
    | none =>
      rw [hchild] at h
      dsimp only at h
      split at h <;> cases h
    | some child =>
      have hsorted' : child.Sorted := hsorted.at? (by simpa using hbare) hchild
      obtain ⟨entries, rfl⟩ := hsorted'.exists_directory
      rw [hchild] at h
      obtain ⟨entries', hentries'⟩ := ih (hsame.trans hchild) hsorted' hrest h
      have hcons : name :: q = [name] ++ q := rfl
      exact ⟨entries', by rw [hcons, Node.at?_append, hchild, Option.bind_some, hentries']⟩

/-- A path below the root that exists leads to a directory of the tree, if it can. -/
theorem Holds.exists_directory {d : Disk} {top tree : Node} {root path : String} {place q : List String}
    (hfresh : Fresh top root place) (h : Holds top place d tree) (hpath : Below root path q)
    (hq : AreDirectories q) (hexists : d.pathExists path = true) :
    ∃ entries, tree.at? q = some (.directory entries) := by
  obtain ⟨before, -, hsplit, hbefore⟩ := hpath.pieces
  obtain ⟨m, hm⟩ : ∃ m, walkLinks d.top true mostLinks [] (before ++ q) =
      walkLinks d.top true m place q := (h.leads_before hfresh hbefore).walk (.inr rfl)
  obtain ⟨n, hn⟩ := Option.isSome_iff_exists.mp hexists
  obtain ⟨goal, hlocate⟩ := exists_locate hn
  obtain ⟨-, -, hwalk⟩ := walk_of_locate hlocate
  rw [hsplit, hm, walkLinks_eq] at hwalk
  exact exists_directory_of_walk (h.at?_root hfresh) h.sorted hq hwalk

/-! ## Making directories -/

section Making

variable {d : Disk} {top tree : Node} {root path name : String} {place q : List String}
  {entries : List (String × Node)}

/-- Makes a directory, unless it is there. -/
def ensureDirectory (path : String) : DiskWork Unit :=
  tryCatch (Disk.makeDirectory path) fun e => do
    if (← get).isDirectory path then pure () else throw e

theorem makeDirectoriesWithin_succ {fuel : Nat} : Disk.makeDirectoriesWithin (fuel + 1) path = (do
    if (!(Path.parting path).1.isEmpty && !(Path.parting path).2.isEmpty &&
        !(← get).pathExists (Path.parting path).1) = true then
      tryCatch (Disk.makeDirectoriesWithin fuel (Path.parting path).1) fun e =>
        match e with
        | .system .taken _ => pure ()
        | _ => throw e
      if (Path.parting path).2 == "." then pure () else ensureDirectory path
    else ensureDirectory path) := by
  rw [Disk.makeDirectoriesWithin]
  generalize Path.parting path = parts
  rfl

theorem HasDirectory.isDirectory (h : HasDirectory d path) : d.isDirectory path = true := by
  obtain ⟨entries, h⟩ := h
  rw [Disk.isDirectory, h]

theorem hasDirectory_of_isDirectory (h : d.isDirectory path = true) : HasDirectory d path := by
  rw [Disk.isDirectory] at h
  split at h
  · rename_i entries hnode
    exact ⟨entries, hnode⟩
  · cases h

theorem HasDirectory.pathExists (h : HasDirectory d path) : d.pathExists path = true := by
  obtain ⟨entries, h⟩ := h
  rw [Disk.pathExists, h]
  rfl

/-- The path at which the place for a new directory is looked up. -/
def lookedUp (path : String) : String :=
  if (Path.trimmed path).isEmpty then path else Path.trimmed path

/-- What making a directory comes to where a path leads. -/
def makeAt (path : String) : Option Mishap → Except AccessError Arrival → DiskWork Unit
  | some m, _ => throw (.system m.error path)
  | none, .ok (.present ..) => throw (.system .taken path)
  | none, .ok (.free place) => modify (·.set place (.directory []))
  | none, .error (.system e _) => throw (.system e path)
  | none, .error e => throw e

theorem run_makeDirectory : (Disk.makeDirectory path).run.run d =
    (makeAt path (d.mishap d.changes)
      (admitted path (locate d.top false (lookedUp path)))).run.run d.tick := rfl

theorem makes_makeDirectory (hcalm : ∀ n, d.mishap n = none) (hend : path.endsWith "/" = false)
    (hshort : path.utf8ByteSize ≤ longestPath) {free : List String} (hfree : locate d.top false path = .ok (.free free)) :
    Makes (Disk.makeDirectory path) d () (d.tick.set free (.directory [])) := by
  have hpath : lookedUp path = path := by rw [lookedUp, Path.trimmed_eq hend, ite_self]
  rw [Makes, run_makeDirectory, hpath, hcalm, admitted_short hshort, hfree]
  rfl

theorem fails_makeDirectory (hfree : ∀ free, locate d.top false (lookedUp path) ≠ .ok (.free free)) :
    ∃ e, Fails (Disk.makeDirectory path) d e d.tick := by
  unfold Fails
  rw [run_makeDirectory]
  cases d.mishap d.changes with
  | some m => exact ⟨_, rfl⟩
  | none =>
    cases hfound : admitted path (locate d.top false (lookedUp path)) with
    | error e => cases e <;> exact ⟨_, rfl⟩
    | ok arrival =>
      cases arrival with
      | present place n => exact ⟨_, rfl⟩
      | free place => exact absurd (admitted_eq_ok.mp hfound).2 (hfree place)

theorem mem_lookedUp {c : Char} (h : c ∈ (lookedUp path).toList) : c ∈ path.toList := by
  rw [lookedUp] at h
  split at h
  · exact h
  · rw [Path.trimmed, String.toList_ofList] at h
    exact (List.rdropWhile_prefix _ _).subset h

theorem lookedUp_ne_empty (hne : path ≠ "") : lookedUp path ≠ "" := by
  rw [lookedUp]
  split
  · exact hne
  · rename_i htrimmed
    exact mt String.isEmpty_iff.mpr htrimmed

theorem names_lookedUp : names (lookedUp path) = names path := by
  rw [lookedUp]
  split
  · rfl
  · exact Path.names_trimmed path

/-- A directory that is there is left alone, even if something befalls the attempt to make it. -/
theorem makes_ensureDirectory_there (hclean : '\x00' ∉ path.toList) (hne : path ≠ "")
    (hshort : path.utf8ByteSize ≤ longestPath) {goal : List String} (hleads : Leads d.top mostLinks [] (names path) goal) :
    Makes (ensureDirectory path) d () d.tick := by
  have hdirectory : HasDirectory d.tick path := hasDirectory_of_leads hclean hne hshort hleads
  have htaken : ∀ free, locate d.top false (lookedUp path) ≠ .ok (.free free) := by
    intro free hfree
    rw [← names_lookedUp] at hleads
    have hwalk := (locate_eq_ok (mt mem_lookedUp hclean) (lookedUp_ne_empty hne)).mp hfree
    exact (Leads.splitOn_iff.mpr hleads).not_free hwalk
  obtain ⟨e, hfails⟩ := fails_makeDirectory htaken
  refine makes_of_fails hfails (makes_bind.mpr ⟨d.tick, d.tick, rfl, ?_⟩)
  rw [if_pos hdirectory.isDirectory]
  rfl

/-- So are directories on the way to it: what is before it on a path is there, since it is there. -/
theorem makes_makeDirectoriesWithin_there {fuel : Nat} (hclean : '\x00' ∉ path.toList) (hne : path ≠ "")
    (hshort : path.utf8ByteSize ≤ longestPath) {goal : List String} (hleads : Leads d.top mostLinks [] (names path) goal) :
    Makes (Disk.makeDirectoriesWithin (fuel + 1) path) d () d.tick := by
  have hcond : (!(Path.parting path).1.isEmpty && !(Path.parting path).2.isEmpty &&
      !d.pathExists (Path.parting path).1) = false := by
    by_cases hhead : (Path.parting path).1 = ""
    · simp [hhead]
    rw [Path.names_parting] at hleads
    obtain ⟨entries, hgoal⟩ := hleads.exists_directory
    obtain ⟨mid, hmid⟩ := hleads.before (Leads.at?_top hgoal)
    have hexists := (hasDirectory_of_leads (mt Path.mem_parting hclean) hhead
      (Path.size_parting_le.trans hshort) hmid).pathExists
    rw [hexists, Bool.not_true, Bool.and_false]
  rw [makeDirectoriesWithin_succ]
  refine makes_bind.mpr ⟨d, d, rfl, ?_⟩
  rw [hcond, if_neg Bool.false_ne_true]
  exact makes_ensureDirectory_there hclean hne hshort hleads

theorem Holds.tick (h : Holds top place d tree) : Holds top place d.tick tree :=
  ⟨h.top, h.calm, h.sorted⟩

variable (hfresh : Fresh top root place) (h : Holds top place d tree)

include hfresh h

/-- What is put below the root is put into the tree there. -/
theorem Holds.set {n : Node} (hsorted : (Node.put n tree q).Sorted) :
    Holds top place (d.tick.set (place ++ q) n) (Node.put n tree q) := by
  refine ⟨?_, h.calm, hsorted⟩
  show Node.put n d.top (place ++ q) = _
  rw [h.top, Node.put_append (Node.at?_put hfresh.empty), Node.put_put hfresh.empty]

/-- Within a directory of the tree, a directory is made sure of. -/
theorem Holds.makes_ensureDirectory (hpath : Below root path (q ++ [name]))
    (hclean : '\x00' ∉ path.toList) (hshort : path.utf8ByteSize ≤ longestPath) (hq : AreDirectories (q ++ [name]))
    (hthere : tree.at? q = some (.directory entries)) :
    ∃ d', Makes (ensureDirectory path) d () d' ∧
      Holds top place d' (Node.grow (.directory []) tree (q ++ [name])) := by
  have hname : Ordinary name := hq.ordinary name (by simp)
  cases hentry : tree.at? (q ++ [name]) with
  | some n =>
    obtain ⟨siblings, rfl⟩ := (h.sorted.at? hq.bare hentry).exists_directory
    have hleads := Leads.splitOn_iff.mp (h.leads_below hfresh hpath hq.ordinary hentry)
    refine ⟨d.tick, makes_ensureDirectory_there hclean hpath.nonempty hshort hleads, ?_⟩
    rw [Node.grow_directory_self hentry]
    exact h.tick
  | none =>
    have hordinary : ∀ name ∈ q, Ordinary name := fun name hmem =>
      hq.ordinary name (List.mem_append_left _ hmem)
    have hfree : locate d.top false path = .ok (.free (place ++ (q ++ [name]))) := by
      have hlocate := h.locate_entry hfresh false hpath hclean hordinary hname hthere
        (by simp [hentry])
      rwa [hentry] at hlocate
    have hlookup : entries.lookup name = none := by
      rw [Node.at?_append, hthere, Option.bind_some, Node.at?_cons] at hentry
      cases hchild : entries.lookup name with
      | none => rfl
      | some child =>
        rw [hchild, Option.bind_some, Node.at?_nil] at hentry
        cases hentry
    have hput := Node.grow_eq_put hthere (.inr ⟨rfl, hlookup⟩)
    have hsorted := h.sorted.grow_directory hq.bare
    rw [hput] at hsorted ⊢
    have hend := hpath.not_endsWith hname.nonempty
    exact ⟨_, makes_tryCatch (makes_makeDirectory h.calm hend hshort hfree), h.set hfresh hsorted⟩

/-- The root itself is left alone. -/
theorem Holds.makes_root {fuel : Nat} (hpath : Below root path []) (hclean : '\x00' ∉ path.toList)
    (hshort : path.utf8ByteSize ≤ longestPath) :
    Makes (Disk.makeDirectoriesWithin (fuel + 1) path) d () d.tick :=
  makes_makeDirectoriesWithin_there hclean hpath.nonempty hshort (hpath.names_eq_root ▸ h.leads hfresh)

omit h in
/-- Making the directories of a path below the root grows the tree by them. -/
theorem Holds.makes_makeDirectoriesWithin {fuel : Nat} (hfuel : 0 < fuel ∧ q.length ≤ fuel)
    (h : Holds top place d tree) (hpath : Below root path q) (hclean : '\x00' ∉ path.toList)
    (hshort : path.utf8ByteSize ≤ longestPath) (hq : AreDirectories q) :
    ∃ d', Makes (Disk.makeDirectoriesWithin fuel path) d () d' ∧
      Holds top place d' (Node.grow (.directory []) tree q) := by
  induction fuel generalizing path q with
  | zero => exact absurd hfuel.1 (Nat.not_lt_zero _)
  | succ fuel ih =>
    rcases List.eq_nil_or_concat' q with rfl | ⟨q, name, rfl⟩
    · obtain ⟨entries, rfl⟩ := h.sorted.exists_directory
      exact ⟨d.tick, h.makes_root hfresh hpath hclean hshort, h.tick⟩
    · have hname : Ordinary name := hq.ordinary name (by simp)
      have hq' : AreDirectories q := fun name hmem => hq name (List.mem_append_left _ hmem)
      have hhead : Below root (Path.directory path) q :=
        hpath.directory fun name hmem => (hq'.ordinary name hmem).nonempty
      have hclean' : '\x00' ∉ (Path.directory path).toList := mt Path.mem_directory hclean
      have hshort' := Path.size_directory_le.trans hshort
      have hget : Makes (get : DiskWork Disk) d d d := rfl
      rw [makeDirectoriesWithin_succ, hpath.parting hname.nonempty]
      cases hexists : d.pathExists (Path.directory path) with
      | true =>
        obtain ⟨entries, hthere⟩ := h.exists_directory hfresh hhead hq' hexists
        obtain ⟨d', hmakes, hholds⟩ := h.makes_ensureDirectory hfresh hpath hclean hshort hq hthere
        refine ⟨d', makes_bind.mpr ⟨d, d, hget, ?_⟩, hholds⟩
        rw [hexists, Bool.not_true, Bool.and_false, if_neg Bool.false_ne_true]
        exact hmakes
      | false =>
        -- the root is there, so this is a directory below it
        have hpositive : 0 < q.length := by
          rw [List.length_pos_iff]
          rintro rfl
          have hthere := hasDirectory_of_leads hclean' hhead.nonempty hshort'
            (hhead.names_eq_root ▸ h.leads hfresh)
          exact Bool.false_ne_true (hexists.symm.trans hthere.pathExists)
        have hless : q.length ≤ fuel := by simpa using hfuel.2
        obtain ⟨d', hmakes, hholds⟩ := ih ⟨hpositive.trans_le hless, hless⟩ hhead hclean' hshort' hq'
        -- the directories before the last one are there now
        obtain ⟨entries, hthere⟩ := h.sorted.exists_grown hq'.bare
        obtain ⟨d'', hmakes', hholds'⟩ := hholds.makes_ensureDirectory hfresh hpath hclean hshort hq hthere
        rw [h.sorted.grow_append hq'.bare] at hholds'
        have hcond : (!(Path.directory path).isEmpty && !name.isEmpty && !false) = true := by
          simp [hhead.nonempty, hname.nonempty]
        have hpoint : (name == ".") = false := beq_eq_false_iff_ne.mpr hname.notHere
        refine ⟨d'', makes_bind.mpr ⟨d, d, hget, ?_⟩, hholds'⟩
        rw [hexists, if_pos hcond, hpoint, if_neg Bool.false_ne_true]
        exact makes_bind.mpr ⟨(), d', makes_tryCatch hmakes, hmakes'⟩

end Making

/-! ## Writing files -/

/-- The place of a file below a root, by names that a file system takes. -/
structure IsTarget (place : List String) : Prop where
  filePlace : Node.IsFilePlace place
  ordinary : ∀ name ∈ place, Ordinary name
  plain : ∀ name ∈ place, '/' ∉ name.toList
  clean : ∀ name ∈ place, '\x00' ∉ name.toList

/-- The path of a place below a root is not too long, and its directories are not too many for the calls that
may nest. -/
structure Fits (nesting? : Option Nat) (root : String) (place : List String) : Prop where
  short : (Path.joinAll root place).utf8ByteSize ≤ longestPath
  nested : ∀ n ∈ nesting?, 0 < n ∧ place.dropLast.length ≤ n

/-- There are as many calls as may nest, or as many as are needed. -/
theorem le_nesting {nesting? : Option Nat} {k most : Nat} (h : ∀ n ∈ nesting?, 0 < n ∧ k ≤ n) (hk : k ≤ most) :
    0 < nesting?.getD (most + 1) ∧ k ≤ nesting?.getD (most + 1) := by
  cases nesting? with
  | none => exact ⟨Nat.succ_pos most, Nat.le_succ_of_le hk⟩
  | some n => exact h n rfl

section Writing

variable {d : Disk} {top tree : Node} {root path text : String} {place q : List String}
  {nesting? : Option Nat} {targets : List (List String × String)}

/-- What putting a text into a file comes to. -/
def putText (path text : String) (place : List String) : Option Mishap → DiskWork Unit
  | none => modify (·.set place (.file (.text text)))
  | some m => do
    match m.reached with
    | some n => modify (·.set place (.file (.text (String.ofList (text.toList.take n)))))
    | none => pure ()
    throw (.system m.error path)

/-- What writing a text comes to where a path leads. -/
def writeAt (path text : String) (mishap? : Option Mishap) : Except AccessError Arrival → DiskWork Unit
  | .error e => throw e
  | .ok (.present place (.file _)) => putText path text place mishap?
  | .ok (.present ..) => throw (.system .isDirectory path)
  | .ok (.free place) =>
    if path.endsWith "/" then throw (.system .isDirectory path) else putText path text place mishap?

theorem run_write : (Disk.write path text).run.run d =
    (writeAt path text (d.mishap d.changes) (admitted path (locate d.top true path))).run.run d.tick := rfl

/-- A text gets to a file on a calm disk, whether the file is there or not. -/
theorem makes_write (hcalm : ∀ n, d.mishap n = none) (hend : path.endsWith "/" = false)
    (hshort : path.utf8ByteSize ≤ longestPath) {there : List String}
    (h : locate d.top true path = .ok (.free there) ∨
      ∃ content, locate d.top true path = .ok (.present there (.file content))) :
    Makes (Disk.write path text) d () (d.tick.set there (.file (.text text))) := by
  rw [Makes, run_write, hcalm, admitted_short hshort]
  obtain h | ⟨content, h⟩ := h
  · rw [h, writeAt, hend]
    rfl
  · rw [h]
    rfl

theorem IsTarget.isPart (h : IsTarget q) : ∀ name ∈ q, Path.IsPart name := fun name hmem =>
  ⟨(h.ordinary name hmem).nonempty, h.plain name hmem⟩

variable (hfresh : Fresh top root place) (h : Holds top place d tree)

include hfresh h

/-- Writing a file below the root grows the tree by it. -/
theorem Holds.makes_writeFile (text : String) (hq : IsTarget q) (hfits : Fits nesting? root q) :
    ∃ d', Makes (writeFile nesting? (Path.joinAll root q) text) d () d' ∧
      Holds top place d' (Node.grow (.file (.text text)) tree q) := by
  have hbelow := Path.below_joinAll hfresh.nonempty hq.isPart
  have hclean : '\x00' ∉ (Path.joinAll root q).toList :=
    Path.not_mem_joinAll hfresh.clean hq.clean (by decide)
  obtain ⟨q, name, rfl, hbare, hpoint⟩ := hq.filePlace
  have hname : Ordinary name := hq.ordinary name (by simp)
  have hordinary : ∀ name ∈ q, Ordinary name := fun name hmem =>
    hq.ordinary name (List.mem_append_left _ hmem)
  have hdirectories : AreDirectories q := fun name hmem => ⟨hordinary name hmem, hbare name hmem⟩
  have hhead := hbelow.directory fun name hmem => (hordinary name hmem).nonempty
  have hnesting : ∀ n ∈ nesting?, 0 < n ∧ q.length ≤ n := by simpa using hfits.nested
  obtain ⟨d', hmakes, hholds⟩ := h.makes_makeDirectoriesWithin hfresh (le_nesting hnesting hhead.length_le)
    hhead (mt Path.mem_directory hclean) (Path.size_directory_le.trans hfits.short) hdirectories
  obtain ⟨entries, hgrown⟩ := h.sorted.exists_grown hbare
  have hfile {n : Node} (hn : (Node.grow (.directory []) tree q).at? (q ++ [name]) = some n) :
      ∃ content, n = .file content := hholds.sorted.at?_file hbare hpoint hn
  have hlink : ∀ target, (Node.grow (.directory []) tree q).at? (q ++ [name]) ≠ some (.link target) := by
    intro target hlink
    obtain ⟨content, heq⟩ := hfile hlink
    cases heq
  have hlocate := hholds.locate_entry hfresh true hbelow hclean hordinary hname hgrown hlink
  have hwrites : Makes (Disk.write (Path.joinAll root (q ++ [name])) text) d' ()
      (d'.tick.set (place ++ (q ++ [name])) (.file (.text text))) := by
    refine makes_write hholds.calm (hbelow.not_endsWith hname.nonempty) hfits.short ?_
    rw [hlocate]
    cases hentry : (Node.grow (.directory []) tree q).at? (q ++ [name]) with
    | none => exact .inl rfl
    | some n =>
      obtain ⟨content, rfl⟩ := hfile hentry
      exact .inr ⟨content, rfl⟩
  have hput : Node.grow (.file (.text text)) tree (q ++ [name]) =
      Node.put (.file (.text text)) (Node.grow (.directory []) tree q) (q ++ [name]) := by
    rw [← h.sorted.grow_append hbare]
    exact Node.grow_eq_put hgrown (.inl ⟨_, rfl⟩)
  have hsorted : (Node.grow (.file (.text text)) tree (q ++ [name])).Sorted :=
    h.sorted.grow_file hbare hpoint
  rw [hput] at hsorted ⊢
  exact ⟨_, makes_bind.mpr ⟨(), d', hmakes, hwrites⟩, hholds.set hfresh hsorted⟩

omit h in
/-- Writing files grows the tree by all of them. -/
theorem Holds.makes_writeFiles (written : Nat) (h : Holds top place d tree)
    (htargets : ∀ target ∈ targets, IsTarget target.1 ∧ Fits nesting? root target.1) :
    ∃ d', Makes (writeFiles nesting? written (targets.map fun t => (Path.joinAll root t.1, t.2))) d
        (written + targets.length) d' ∧
      Holds top place d' (Node.growAll tree (targets.map fun t => (t.1, .text t.2))) := by
  induction targets generalizing d tree written with
  | nil => exact ⟨d, rfl, h⟩
  | cons target targets ih =>
    obtain ⟨htarget, hrest⟩ := List.forall_mem_cons.mp htargets
    obtain ⟨d', hmakes, hholds⟩ := h.makes_writeFile hfresh target.2 htarget.1 htarget.2
    obtain ⟨d'', hmakes', hholds'⟩ := ih (written + 1) hholds hrest
    refine ⟨d'', ?_, hholds'⟩
    rw [List.map_cons, writeFiles, List.length_cons, Nat.add_comm targets.length, ← Nat.add_assoc]
    exact makes_bind.mpr ⟨(), d', makes_asOutput hmakes, hmakes'⟩

end Writing

/-! ## Runs -/

section Runs

variable {d : Disk} {root name text : String} {place q : List String} {nesting? : Option Nat}
  {error : SystemError} {rest : List (String × String)}

/-- A directory is a root as it is, whatever befalls the attempt to make it. -/
theorem makes_prepareRoot_there (hnesting : ∀ n ∈ nesting?, 0 < n) (h : HasDirectory d root) :
    Makes (prepareRoot nesting? root) d () d.tick := by
  obtain ⟨entries, hnode⟩ := h
  obtain ⟨hshort, goal, hlocate⟩ := node?_eq_some.mp hnode
  obtain ⟨hclean, hne, hwalk⟩ := walk_of_locate hlocate
  have hdirectory : d.isDirectory root = true := HasDirectory.isDirectory ⟨entries, hnode⟩
  obtain ⟨calls, hcalls⟩ : ∃ calls, nesting?.getD (root.length + 1) = calls + 1 :=
    Nat.exists_eq_succ_of_ne_zero
      (le_nesting (fun n hn => ⟨hnesting n hn, Nat.zero_le n⟩) (Nat.zero_le _)).1.ne'
  refine makes_bind.mpr ⟨d, d, rfl, ?_⟩
  rw [hdirectory, Bool.not_true, Bool.and_false, Disk.makeDirectories, hcalls]
  exact makes_asOutput
    (makes_makeDirectoriesWithin_there hclean hne hshort (Leads.splitOn_iff.mp (leads_of_walk hwalk)))

/-- An empty directory is a root as it is. -/
theorem makes_prepareRoot (hcalm : ∀ n, d.mishap n = none) (hnesting : ∀ n ∈ nesting?, 0 < n)
    (hempty : d.node? root = some (.directory [])) (hfresh : Fresh d.top root place) :
    ∃ d', Makes (prepareRoot nesting? root) d () d' ∧ Holds d.top place d' (.directory []) := by
  have hholds : Holds d.top place d (.directory []) :=
    ⟨(Node.put_self hfresh.empty).symm, hcalm, Node.sorted_empty⟩
  exact ⟨d.tick, makes_prepareRoot_there hnesting ⟨[], hempty⟩, hholds.tick⟩

/-- Writing files below an empty directory leaves a tree there that grew from nothing by the files. -/
theorem makes_writeBelow {targets : List (List String × String)} (hcalm : ∀ n, d.mishap n = none)
    (hnesting : ∀ n ∈ nesting?, 0 < n) (hempty : d.node? root = some (.directory []))
    (htargets : ∀ target ∈ targets, IsTarget target.1 ∧ Fits nesting? root target.1) :
    ∃ d', Makes (writeBelowWithin nesting? root (targets.map fun t => (Path.joinAll root t.1, t.2))) d
        targets.length d' ∧
      d'.node? root = some (Node.growAll (.directory []) (targets.map fun t => (t.1, .text t.2))) := by
  obtain ⟨place, hfresh⟩ := exists_fresh hempty
  obtain ⟨d', hmakes, hholds⟩ := makes_prepareRoot hcalm hnesting hempty hfresh
  obtain ⟨d'', hmakes', hholds'⟩ := hholds.makes_writeFiles hfresh 0 htargets
  refine ⟨d'', ?_, ?_⟩
  · rw [Nat.zero_add] at hmakes'
    exact makes_bind.mpr ⟨(), d', hmakes, hmakes'⟩
  · have hwalk := (Leads.splitOn_iff.mpr (hholds'.leads hfresh)).walk_here
    rw [hholds'.at?_root hfresh] at hwalk
    exact node?_of_walk hfresh.clean hfresh.nonempty hfresh.short hwalk

/-! ## Runs that end at their first file -/

/-- The entries that no new file can be in a directory below a root, and what the system says to them. -/
inductive Unusable (root : String) (q : List String) (name : String) : SystemError → Prop
  | up (h : name = "..") (hshort : (Path.joinAll root (q ++ [name])).utf8ByteSize ≤ longestPath) :
    Unusable root q name .isDirectory
  | long (h : longestName < name.utf8ByteSize) : Unusable root q name .nameTooLong
  | far (h : longestPath < (Path.joinAll root (q ++ [name])).utf8ByteSize) :
    Unusable root q name .nameTooLong

theorem fails_write {path : String} (h : admitted path (locate d.top true path) = .error (.system error path) ∨
      error = .isDirectory ∧ ∃ goal entries,
        admitted path (locate d.top true path) = .ok (.present goal (.directory entries))) :
    Fails (Disk.write path text) d (.system error path) d.tick := by
  rw [Fails, run_write]
  obtain h | ⟨rfl, goal, entries, h⟩ := h <;> rw [h] <;> rfl

/-- What a walk from a directory of the tree to such an entry comes to. -/
theorem Unusable.admitted {top : Node} {links : Nat} (h : Unusable root q name error)
    (hclean : '\x00' ∉ (Path.joinAll root (q ++ [name])).toList)
    (hthere : ∃ entries, top.at? (place ++ q) = some (.directory entries))
    (hlocate : locate top true (Path.joinAll root (q ++ [name])) =
      (walkLinks top true links (place ++ q) [name]).mapError fun e =>
        .system e (Path.joinAll root (q ++ [name]))) :
    let path := Path.joinAll root (q ++ [name])
    Files.admitted path (locate top true path) = .error (.system error path) ∨
      error = .isDirectory ∧ ∃ goal entries,
        Files.admitted path (locate top true path) = .ok (.present goal (.directory entries)) := by
  intro path
  cases h with
  | up h hshort =>
    subst h
    obtain ⟨entries, hthere⟩ := hthere
    obtain ⟨siblings, hparent⟩ := Leads.at?_dropLast hthere
    rw [admitted_short hshort, hlocate, walkLinks_eq, walk_up, walk, hparent]
    exact .inr ⟨rfl, _, _, rfl⟩
  | long h =>
    have hidle : ¬ Path.IsIdle name := by
      rintro (rfl | rfl) <;> exact absurd h (by decide)
    have hup : name ≠ ".." := by
      rintro rfl
      exact absurd h (by decide)
    rw [hlocate, walkLinks_eq, walk_long hidle hup h]
    exact .inl admitted_nameTooLong
  | far h => exact .inl (admitted_long hclean h)

/-- A file at such an entry ends the run, and no file is written. -/
theorem fails_writeBelow (hcalm : ∀ n, d.mishap n = none) (hempty : d.node? root = some (.directory []))
    (hq : AreDirectories q) (hparts : ∀ part ∈ q ++ [name], Path.IsPart part ∧ '\x00' ∉ part.toList)
    (hshort : (Path.directory (Path.joinAll root (q ++ [name]))).utf8ByteSize ≤ longestPath)
    (hbad : Unusable root q name error) :
    ∃ d', Fails (writeBelow root ((Path.joinAll root (q ++ [name]), text) :: rest)) d
      (.brokenOff 0 (Path.joinAll root (q ++ [name]))
        (AccessError.system error (Path.joinAll root (q ++ [name]))).message) d' := by
  obtain ⟨place, hfresh⟩ := exists_fresh hempty
  have hnesting : ∀ n ∈ (none : Option Nat), 0 < n := nofun
  obtain ⟨d', hmakes, hholds⟩ := makes_prepareRoot hcalm hnesting hempty hfresh
  have hbelow := Path.below_joinAll hfresh.nonempty fun part hpart => (hparts part hpart).1
  have hclean : '\x00' ∉ (Path.joinAll root (q ++ [name])).toList :=
    Path.not_mem_joinAll hfresh.clean (fun part hpart => (hparts part hpart).2) (by decide)
  have hhead := hbelow.directory fun name hmem => (hq.ordinary name hmem).nonempty
  obtain ⟨d'', hmakes', hholds'⟩ := hholds.makes_makeDirectoriesWithin hfresh
    ⟨Nat.succ_pos _, Nat.le_succ_of_le hhead.length_le⟩ hhead (mt Path.mem_directory hclean) hshort hq
  obtain ⟨entries, hgrown⟩ := Node.sorted_empty.exists_grown hq.bare
  obtain ⟨before, -, hsplit, hbefore⟩ := hbelow.pieces
  obtain ⟨m, hm⟩ : ∃ m, walkLinks d''.top true mostLinks [] (before ++ q ++ [name]) =
      walkLinks d''.top true m (place ++ q) [name] :=
    (hholds'.leads_append hfresh hbefore hq.ordinary hgrown).walk (.inr rfl)
  have hlocate : locate d''.top true (Path.joinAll root (q ++ [name])) =
      (walkLinks d''.top true m (place ++ q) [name]).mapError fun e =>
        .system e (Path.joinAll root (q ++ [name])) := by
    rw [locate_eq hclean hbelow.nonempty, hsplit, ← List.append_assoc, hm]
  have hwrite := hbad.admitted hclean ⟨entries, (hholds'.at? hfresh).trans hgrown⟩ hlocate
  exact ⟨d''.tick, fails_after hmakes
    (fails_bind (fails_asOutput (fails_after hmakes' (fails_write hwrite))))⟩

/-- If more directories are to be made than calls may nest, none is. -/
theorem Holds.fails_makeDirectoriesWithin {top : Node} {path : String} {nesting : Nat}
    (hfresh : Fresh top root place) (h : Holds top place d (.directory [])) (hmore : nesting < q.length)
    (hpath : Below root path q) (hq : AreDirectories q) :
    Fails (Disk.makeDirectoriesWithin nesting path) d .tooNested d := by
  induction nesting generalizing path q with
  | zero => rfl
  | succ nesting ih =>
    obtain ⟨q, name, rfl⟩ := (List.eq_nil_or_concat' q).resolve_left (List.ne_nil_of_length_pos (by omega))
    rw [List.length_append, List.length_singleton] at hmore
    have hname : Ordinary name := hq.ordinary name (by simp)
    have hq' : AreDirectories q := fun name hmem => hq name (List.mem_append_left _ hmem)
    have hhead := hpath.directory fun name hmem => (hq'.ordinary name hmem).nonempty
    have hmissing : d.pathExists (Path.directory path) = false := by
      rw [← Bool.not_eq_true]
      intro hexists
      obtain ⟨entries, hthere⟩ := h.exists_directory hfresh hhead hq' hexists
      cases q with
      | nil => simp at hmore
      | cons first q => cases hthere
    have hcond : (!(Path.directory path).isEmpty && !name.isEmpty && !false) = true := by
      simp [hhead.nonempty, hname.nonempty]
    have hrun := ih (by omega) hhead hq'
    rw [Fails, makeDirectoriesWithin_succ, hpath.parting hname.nonempty, Document.run_bind_eq]
    show (ite ((!(Path.directory path).isEmpty && !name.isEmpty &&
      !d.pathExists (Path.directory path)) = true) _ _ : DiskWork Unit).run.run d = _
    rw [hmissing, if_pos hcond, Document.run_bind_eq, run_tryCatch, hrun]
    rfl

/-- A file in such a directory ends the run, and not by a failure of the system. -/
theorem fails_writeBelow_nested {nesting : Nat} (hcalm : ∀ n, d.mishap n = none)
    (hempty : d.node? root = some (.directory [])) (hpositive : 0 < nesting) (hmore : nesting < q.length)
    (hq : AreDirectories q) (hparts : ∀ part ∈ q ++ [name], Path.IsPart part) :
    ∃ d', Fails (writeBelowWithin (some nesting) root ((Path.joinAll root (q ++ [name]), text) :: rest)) d
      .tooNested d' := by
  obtain ⟨place, hfresh⟩ := exists_fresh hempty
  have hnesting : ∀ n ∈ some nesting, 0 < n := by simpa using hpositive
  obtain ⟨d', hmakes, hholds⟩ := makes_prepareRoot hcalm hnesting hempty hfresh
  have hbelow := Path.below_joinAll hfresh.nonempty hparts
  have hhead := hbelow.directory fun name hmem => (hq.ordinary name hmem).nonempty
  have hfails : Fails (writeFile (some nesting) (Path.joinAll root (q ++ [name])) text) d' .tooNested d' :=
    fails_bind (hholds.fails_makeDirectoriesWithin hfresh hmore hhead hq)
  refine ⟨d', fails_after hmakes (fails_bind ?_)⟩
  rw [Fails, asOutput]
  show ((Except.mapError _ <$> (writeFile (some nesting) _ text).run : StateM Disk _)).run d' = _
  rw [StateT.run_map]
  exact congrArg _ hfails

end Runs

end ClassAtlas.Files
