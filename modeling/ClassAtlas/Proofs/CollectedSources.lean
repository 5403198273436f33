import ClassAtlas.Files.Scan
import ClassAtlas.Proofs.LinklessTrees
import Mathlib.Data.List.Sort

/-! # The sources below a directory

Collecting the sources of a tree gives the files with an accepted extension that no skipped directory
holds, each once: those of a directory before those of its subdirectories, both by name. So it only
matters which files are where, and not in which order a directory lists its entries. -/

namespace ClassAtlas.Files

open ClassAtlas.Path (IsPart join joinAll)

namespace Node

/-! ## Trees as file systems have them -/

/-- In every directory of a tree the entries have names of some sort, no two the same. -/
inductive NamedBy (p : String → Prop) : Node → Prop
  | file (content : Content) : NamedBy p (.file content)
  | link (target : String) : NamedBy p (.link target)
  | directory {entries : List (String × Node)} (distinct : (entries.map (·.1)).Nodup)
      (names : ∀ e ∈ entries, p e.1) (below : ∀ e ∈ entries, NamedBy p e.2) :
      NamedBy p (.directory entries)

/-- Two trees that differ in the order in which directories list their entries, and in nothing else. -/
inductive Relisted : Node → Node → Prop
  | refl (n : Node) : Relisted n n
  | shuffle {entries entries' : List (String × Node)} (h : entries.Perm entries') :
      Relisted (.directory entries) (.directory entries')
  | inside {before after : List (String × Node)} {name : String} {n n' : Node} (h : Relisted n n') :
      Relisted (.directory (before ++ (name, n) :: after)) (.directory (before ++ (name, n') :: after))
  | trans {a b c : Node} (h : Relisted a b) (h' : Relisted b c) : Relisted a c

section Names

variable {p p' : String → Prop} {tree tree' n : Node} {entries : List (String × Node)} {name : String}
  {place rest : List String}

theorem NamedBy.mono (hp : ∀ name, p name → p' name) (h : NamedBy p tree) : NamedBy p' tree := by
  induction h with
  | file content => exact .file content
  | link target => exact .link target
  | directory distinct names _ ih => exact .directory distinct (fun e he => hp _ (names e he)) ih

theorem NamedBy.lookup (h : NamedBy p (.directory entries)) :
    entries.lookup name = some n ↔ (name, n) ∈ entries := by
  cases h with
  | directory distinct => exact lookup_iff_mem distinct

theorem NamedBy.entry (h : NamedBy p (.directory entries)) (hmem : (name, n) ∈ entries) :
    p name ∧ NamedBy p n := by
  cases h with
  | directory _ names below => exact ⟨names _ hmem, below _ hmem⟩

theorem NamedBy.distinct (h : NamedBy p (.directory entries)) : entries.Pairwise fun a b => a.1 ≠ b.1 := by
  cases h with
  | directory distinct => exact List.pairwise_map.mp distinct

/-- The names on the way to a place that is there. -/
theorem NamedBy.names (h : NamedBy p tree) (hplace : tree.at? place = some n) : ∀ name ∈ place, p name := by
  induction place generalizing tree with
  | nil => exact List.forall_mem_nil _
  | cons name place ih =>
    obtain ⟨entries, child, rfl, hchild, hrest⟩ := exists_entry hplace
    obtain ⟨hname, hbelow⟩ := h.entry (h.lookup.mp hchild)
    exact List.forall_mem_cons.mpr ⟨hname, ih hbelow hrest⟩

theorem NamedBy.at?_cons_iff (h : NamedBy p (.directory entries)) :
    (Node.directory entries).at? (name :: rest) = some n ↔ ∃ m, (name, m) ∈ entries ∧ m.at? rest = some n := by
  rw [at?_cons, Option.bind_eq_some_iff]
  simp only [h.lookup]

theorem NamedBy.relisted (h : NamedBy p tree) (hlist : Relisted tree tree') : NamedBy p tree' := by
  induction hlist with
  | refl n => exact h
  | shuffle hperm =>
    obtain - | - | ⟨distinct, names, below⟩ := h
    exact .directory ((hperm.map _).nodup_iff.mp distinct) (fun e he => names e (hperm.mem_iff.mpr he))
      fun e he => below e (hperm.mem_iff.mpr he)
  | @inside before after name n n' _ ih =>
    obtain - | - | ⟨distinct, names, below⟩ := h
    have hold : ∀ e ∈ before ++ (name, n') :: after,
        e = (name, n') ∨ e ∈ before ++ (name, n) :: after := by
      intro e he
      simp only [List.mem_append, List.mem_cons] at he ⊢
      tauto
    have hthere : (name, n) ∈ before ++ (name, n) :: after := by simp
    refine .directory (by simpa using distinct) (fun e he => ?_) fun e he => ?_
    · obtain rfl | he := hold e he
      · exact names (name, n) hthere
      · exact names e he
    · obtain rfl | he := hold e he
      · exact ih (below (name, n) hthere)
      · exact below e he
  | trans _ _ ih ih' => exact ih' (ih h)

/-- In whatever order entries are listed, the same files and links are at the same places. -/
theorem Relisted.at?_iff (hn : ∀ entries, n ≠ .directory entries) (hlist : Relisted tree tree')
    (h : NamedBy p tree) : tree.at? place = some n ↔ tree'.at? place = some n := by
  induction hlist generalizing place with
  | refl n => rfl
  | shuffle hperm =>
    cases place with
    | nil => simp [Ne.symm (hn _)]
    | cons name rest =>
      rw [h.at?_cons_iff, (h.relisted (.shuffle hperm)).at?_cons_iff]
      simp only [hperm.mem_iff]
  | @inside before after name m m' hinside ih =>
    have h' : NamedBy p (.directory (before ++ (name, m') :: after)) := h.relisted (.inside hinside)
    have hmem : (name, m) ∈ before ++ (name, m) :: after := by simp
    have hm : NamedBy p m := (h.entry hmem).2
    cases place with
    | nil => simp [Ne.symm (hn _)]
    | cons other rest =>
      rw [h.at?_cons_iff, h'.at?_cons_iff]
      simp only [List.mem_append, List.mem_cons, Prod.mk.injEq, or_and_right, exists_or, and_assoc,
        exists_eq_left, exists_and_left, ih hm]
  | trans hfirst _ ih ih' => exact (ih h).trans (ih' (h.relisted hfirst))

theorem Relisted.exists_directory (hlist : Relisted tree tree') (h : ∃ entries, tree = .directory entries) :
    ∃ entries, tree' = .directory entries := by
  induction hlist with
  | refl n => exact h
  | shuffle _ => exact ⟨_, rfl⟩
  | inside _ => exact ⟨_, rfl⟩
  | trans _ _ ih ih' => exact ih' (ih h)

theorem Linkless.relisted (hlinkless : tree.Linkless) (hlist : Relisted tree tree') (h : NamedBy p tree) :
    tree'.Linkless where
  directory := hlist.exists_directory hlinkless.directory
  noLink place target hlink :=
    hlinkless.noLink place target ((hlist.at?_iff (by simp) h).mpr hlink)

theorem noLink_file (content : Content) (place : List String) (target : String) :
    (file content).at? place ≠ some (.link target) := by
  cases place <;> simp [Node.at?]

theorem noLink_directory (h : NamedBy p (.directory entries))
    (hbelow : ∀ e ∈ entries, ∀ place target, e.2.at? place ≠ some (.link target)) (place : List String)
    (target : String) : (directory entries).at? place ≠ some (.link target) := by
  cases place with
  | nil => simp
  | cons name rest =>
    intro hlink
    obtain ⟨child, hmem, hrest⟩ := h.at?_cons_iff.mp hlink
    exact hbelow _ hmem rest target hrest

end Names

end Node

/-! ## The order of a walk -/

/-- In the order in which sources are collected, the files of a directory come before those of its
subdirectories, and both come by name. -/
def Precedes : List String → List String → Prop
  | [a], [b] => a < b
  | [_], _ :: _ :: _ => True
  | a :: a' :: as, b :: b' :: bs => a < b ∨ a = b ∧ Precedes (a' :: as) (b' :: bs)
  | _, _ => False

section Order

variable {a b : String} {as bs : List String}

theorem Precedes.asymm {as bs : List String} (h : Precedes as bs) : ¬ Precedes bs as := by
  fun_induction Precedes as bs with
  | case1 a b => exact lt_asymm h
  | case2 _ b b' bs => exact id
  | case3 a a' as b b' bs ih =>
    rintro (hlt | ⟨rfl, hrest⟩)
    · rcases h with hlt' | ⟨rfl, -⟩
      · exact lt_asymm hlt hlt'
      · exact lt_irrefl _ hlt
    · rcases h with hlt' | ⟨-, hrest'⟩
      · exact lt_irrefl _ hlt'
      · exact ih hrest' hrest
  | case4 => exact h.elim

instance : Std.Irrefl Precedes := ⟨fun _ h => h.asymm h⟩

instance : Std.Antisymm Precedes := ⟨fun _ _ h h' => absurd h' h.asymm⟩

theorem precedes_file (h : bs ≠ []) : Precedes [a] (b :: bs) := by
  obtain ⟨b', bs, rfl⟩ := List.exists_cons_of_ne_nil h
  trivial

theorem precedes_inside (has : as ≠ []) (hbs : bs ≠ []) :
    Precedes (a :: as) (b :: bs) ↔ a < b ∨ a = b ∧ Precedes as bs := by
  obtain ⟨a', as, rfl⟩ := List.exists_cons_of_ne_nil has
  obtain ⟨b', bs, rfl⟩ := List.exists_cons_of_ne_nil hbs
  exact Iff.rfl

/-- Things with different names come in the strict order of their names when they are sorted by them. -/
theorem increasing_mergeSort {α : Type} (key : α → String) {xs : List α}
    (h : xs.Pairwise fun a b => key a ≠ key b) :
    (xs.mergeSort fun a b => byName (key a) (key b)).Pairwise fun a b => key a < key b := by
  have hsorted : (xs.mergeSort fun a b => byName (key a) (key b)).Pairwise
      fun a b => byName (key a) (key b) = true :=
    List.pairwise_mergeSort (fun a b c => by simpa [byName] using le_trans)
      (fun a b => by simpa [byName] using le_total (key a) (key b)) xs
  have hdistinct : (xs.mergeSort fun a b => byName (key a) (key b)).Pairwise fun a b => key a ≠ key b :=
    ((List.mergeSort_perm xs _).pairwise_iff Ne.symm).mpr h
  exact hsorted.imp₂ (fun _ _ hle hne => lt_of_le_of_ne (of_decide_eq_true hle) hne) hdistinct

end Order

/-! ## One directory -/

/-- Whether an entry is not a directory, nor a link that leads to one. -/
def isLoose (leadsToDirectory : String → Bool) (path : String) : String × Node → Bool
  | (_, .file _) => true
  | (name, .link _) => !leadsToDirectory (join path name)
  | (_, .directory _) => false

/-- The names of the sources in a directory itself. -/
def ownSources (s : Selection) (leadsToDirectory : String → Bool) (path : String)
    (entries : List (String × Node)) : List String :=
  (entries.filter fun e => isLoose leadsToDirectory path e && isSourceFile s.suffixes e.1).map (·.1)

/-- A subdirectory, unless it is skipped. -/
def subdirectory? (s : Selection) : String × Node → Option (String × List (String × Node))
  | (name, .directory entries) => if isSkipped s.skipDirectories name then none else some (name, entries)
  | _ => none

/-- A source stands at a place below a directory: its name is accepted, no directory on the way is
skipped, and it is a file, or a link that does not lead to a directory. -/
structure IsSource (s : Selection) (leadsToDirectory : String → Bool) (path : String) (tree : Node)
    (place : List String) : Prop where
  accepted : ∃ dirs name, place = dirs ++ [name] ∧ isSourceFile s.suffixes name = true ∧
    ∀ dir ∈ dirs, isSkipped s.skipDirectories dir = false
  entry : (∃ content, tree.at? place = some (.file content)) ∨
    ∃ target, tree.at? place = some (.link target) ∧ leadsToDirectory (joinAll path place) = false

section Directory

variable {s : Selection} {leads : String → Bool} {path name : String} {tree n : Node}
  {entries : List (String × Node)} {place : List String} {p : String → Prop}

theorem sourcesAmong_eq : sourcesAmong s leads path entries =
    ⟨ownSources s leads path entries, (entries.filterMap (subdirectory? s)).map fun x =>
      (x.1, sourcesBelow s leads (join path x.1) (.directory x.2))⟩ := by
  induction entries with
  | nil => rfl
  | cons e entries ih =>
    obtain ⟨name, n⟩ := e
    cases n with
    | file content =>
      rw [sourcesAmong, ih]
      cases hsource : isSourceFile s.suffixes name <;>
        simp [ownSources, isLoose, List.filterMap_cons, subdirectory?, hsource]
    | link target =>
      rw [sourcesAmong, ih]
      cases hleads : leads (join path name) <;> cases hsource : isSourceFile s.suffixes name <;>
        simp [ownSources, isLoose, List.filterMap_cons, subdirectory?, hsource, hleads]
    | directory inner =>
      rw [sourcesAmong, ih]
      cases hskipped : isSkipped s.skipDirectories name <;>
        simp [ownSources, isLoose, subdirectory?, hskipped]

/-- The sources of a directory are its own and then, subdirectory by subdirectory, those below it. -/
theorem sourcesBelow_directory : sourcesBelow s leads path (.directory entries) =
    ((ownSources s leads path entries).mergeSort byName).map (join path) ++
      ((entries.filterMap (subdirectory? s)).mergeSort fun a b => byName a.1 b.1).flatMap fun x =>
        sourcesBelow s leads (join path x.1) (.directory x.2) := by
  let found (x : String × List (String × Node)) :=
    (x.1, sourcesBelow s leads (join path x.1) (.directory x.2))
  have hbelow : ((entries.filterMap (subdirectory? s)).map found).mergeSort (fun a b => byName a.1 b.1) =
      ((entries.filterMap (subdirectory? s)).mergeSort fun a b => byName a.1 b.1).map found :=
    (List.map_mergeSort (r := fun a b => byName a.1 b.1) (f := found) fun _ _ _ _ => rfl).symm
  rw [sourcesBelow, sourcesAmong_eq, Found.paths, hbelow, List.flatMap_map]

theorem mem_ownSources : name ∈ ownSources s leads path entries ↔
    isSourceFile s.suffixes name = true ∧ ∃ n, (name, n) ∈ entries ∧ isLoose leads path (name, n) = true := by
  simp only [ownSources, List.mem_map, List.mem_filter, Bool.and_eq_true, Prod.exists]
  constructor
  · rintro ⟨name, n, ⟨hmem, hloose, hsource⟩, rfl⟩
    exact ⟨hsource, n, hmem, hloose⟩
  · rintro ⟨hsource, n, hmem, hloose⟩
    exact ⟨name, n, ⟨hmem, hloose, hsource⟩, rfl⟩

theorem mem_subdirectories {x : String × List (String × Node)} : x ∈ entries.filterMap (subdirectory? s) ↔
    (x.1, .directory x.2) ∈ entries ∧ isSkipped s.skipDirectories x.1 = false := by
  rw [List.mem_filterMap]
  constructor
  · rintro ⟨⟨name, n⟩, hmem, hx⟩
    unfold subdirectory? at hx
    split at hx
    · rename_i heq
      cases heq
      split at hx
      · cases hx
      · rename_i hskipped
        cases hx
        exact ⟨hmem, by simpa using hskipped⟩
    · cases hx
  · rintro ⟨hmem, hskipped⟩
    exact ⟨_, hmem, by simp [subdirectory?, hskipped]⟩

theorem distinct_ownSources (h : Node.NamedBy p (.directory entries)) :
    (ownSources s leads path entries).Pairwise (· ≠ ·) :=
  List.pairwise_map.mpr (h.distinct.filter _)

theorem distinct_subdirectories (h : Node.NamedBy p (.directory entries)) :
    (entries.filterMap (subdirectory? s)).Pairwise fun a b => a.1 ≠ b.1 := by
  have hname : ∀ e x, subdirectory? s e = some x → x.1 = e.1 := by
    intro e x hx
    unfold subdirectory? at hx
    split at hx
    · split at hx <;> cases hx
      rfl
    · cases hx
  refine h.distinct.filterMap _ fun a a' hne b hb b' hb' => ?_
  rwa [hname a b hb, hname a' b' hb']

theorem IsSource.ne_nil (h : IsSource s leads path tree place) : place ≠ [] := by
  obtain ⟨dirs, name, rfl, -⟩ := h.accepted
  simp

theorem at?_single (h : Node.NamedBy p (.directory entries))
    (hthere : (Node.directory entries).at? [name] = some n) : (name, n) ∈ entries := by
  obtain ⟨m, hmem, hm⟩ := h.at?_cons_iff.mp hthere
  rw [Node.at?_nil] at hm
  exact Option.some.inj hm ▸ hmem

/-- A source of a directory is one of its own, or one of a subdirectory that is not skipped. -/
theorem isSource_directory (h : Node.NamedBy p (.directory entries)) :
    IsSource s leads path (.directory entries) place ↔
      (∃ name ∈ ownSources s leads path entries, place = [name]) ∨
      ∃ x ∈ entries.filterMap (subdirectory? s), ∃ rest, place = x.1 :: rest ∧
        IsSource s leads (join path x.1) (.directory x.2) rest := by
  constructor
  · rintro ⟨⟨dirs, name, rfl, hsource, hskipped⟩, hentry⟩
    cases dirs with
    | nil =>
      refine .inl ⟨name, mem_ownSources.mpr ⟨hsource, ?_⟩, rfl⟩
      rcases hentry with ⟨content, hthere⟩ | ⟨target, hthere, hleads⟩
      · exact ⟨_, at?_single h hthere, rfl⟩
      · have hleads : leads (join path name) = false := hleads
        exact ⟨_, at?_single h hthere, by simpa [isLoose] using hleads⟩
    | cons dir dirs =>
      obtain ⟨hdir, hdirs⟩ := List.forall_mem_cons.mp hskipped
      have hbelow {n : Node} (hthere : (Node.directory entries).at? (dir :: (dirs ++ [name])) = some n) :
          ∃ inner, (dir, .directory inner) ∈ entries ∧ (Node.directory inner).at? (dirs ++ [name]) = some n := by
        obtain ⟨child, hmem, hrest⟩ := h.at?_cons_iff.mp hthere
        obtain ⟨first, rest, hcons⟩ := List.exists_cons_of_ne_nil (l := dirs ++ [name]) (by simp)
        obtain ⟨inner, rfl⟩ := Node.eq_directory_of_at? (hcons ▸ hrest)
        exact ⟨inner, hmem, hrest⟩
      rcases hentry with ⟨content, hthere⟩ | ⟨target, hthere, hleads⟩
      · obtain ⟨inner, hmem, hrest⟩ := hbelow hthere
        exact .inr ⟨(dir, inner), mem_subdirectories.mpr ⟨hmem, hdir⟩, dirs ++ [name], rfl,
          ⟨dirs, name, rfl, hsource, hdirs⟩, .inl ⟨content, hrest⟩⟩
      · obtain ⟨inner, hmem, hrest⟩ := hbelow hthere
        exact .inr ⟨(dir, inner), mem_subdirectories.mpr ⟨hmem, hdir⟩, dirs ++ [name], rfl,
          ⟨dirs, name, rfl, hsource, hdirs⟩, .inr ⟨target, hrest, hleads⟩⟩
  · rintro (⟨name, hname, rfl⟩ | ⟨⟨dir, inner⟩, hx, rest, rfl, ⟨dirs, name, rfl, hsource, hskipped⟩, hentry⟩)
    · obtain ⟨hsource, n, hmem, hloose⟩ := mem_ownSources.mp hname
      refine ⟨⟨[], name, rfl, hsource, List.forall_mem_nil _⟩, ?_⟩
      have hthere : (Node.directory entries).at? [name] = some n := h.at?_cons_iff.mpr ⟨n, hmem, Node.at?_nil⟩
      cases n with
      | file content => exact .inl ⟨content, hthere⟩
      | link target =>
        have hleads : leads (join path name) = false := by simpa [isLoose] using hloose
        exact .inr ⟨target, hthere, hleads⟩
      | directory inner => cases hloose
    · obtain ⟨hmem, hdir⟩ := mem_subdirectories.mp hx
      refine ⟨⟨dir :: dirs, name, rfl, hsource, List.forall_mem_cons.mpr ⟨hdir, hskipped⟩⟩, ?_⟩
      rcases hentry with ⟨content, hrest⟩ | ⟨target, hrest, hleads⟩
      · exact .inl ⟨content, h.at?_cons_iff.mpr ⟨_, hmem, hrest⟩⟩
      · exact .inr ⟨target, h.at?_cons_iff.mpr ⟨_, hmem, hrest⟩, hleads⟩

theorem not_isSource_of_leaf (hn : ∀ entries, n ≠ .directory entries) :
    ¬ IsSource s leads path n place := by
  intro h
  obtain ⟨name, rest, rfl⟩ := List.exists_cons_of_ne_nil h.ne_nil
  rcases h.entry with ⟨_, hthere⟩ | ⟨_, hthere, -⟩ <;>
  · obtain ⟨entries, rfl⟩ := Node.eq_directory_of_at? hthere
    exact hn entries rfl

end Directory

/-! ## All of a tree -/

/-- The sources below a node of a tree stand at these places, which come in the order of a walk. -/
structure Lists (s : Selection) (leadsToDirectory : String → Bool) (path : String) (tree : Node)
    (places : List (List String)) : Prop where
  paths : sourcesBelow s leadsToDirectory path tree = places.map (joinAll path)
  mem : ∀ place, place ∈ places ↔ IsSource s leadsToDirectory path tree place
  ordered : places.Pairwise Precedes

section Tree

variable {s : Selection} {leads : String → Bool} {path : String} {tree n : Node}
  {entries : List (String × Node)} {places : List (List String)} {p : String → Prop}

theorem lists_leaf (hn : ∀ entries, n ≠ .directory entries) : Lists s leads path n [] where
  paths := by
    cases n with
    | directory entries => exact absurd rfl (hn entries)
    | file content => rfl
    | link target => rfl
  mem place := ⟨nofun, fun hsource => absurd hsource (not_isSource_of_leaf hn)⟩
  ordered := .nil

/-- The subdirectories of a directory that are not skipped, by name. -/
def subdirectories (s : Selection) (entries : List (String × Node)) : List (String × List (String × Node)) :=
  (entries.filterMap (subdirectory? s)).mergeSort fun a b => byName a.1 b.1

theorem lists_directory (h : Node.NamedBy p (.directory entries))
    {inner : String × List (String × Node) → List (List String)}
    (hinner : ∀ x ∈ subdirectories s entries, Lists s leads (join path x.1) (.directory x.2) (inner x)) :
    Lists s leads path (.directory entries) (((ownSources s leads path entries).mergeSort byName).map ([·]) ++
      (subdirectories s entries).flatMap fun x => (inner x).map (x.1 :: ·)) where
  paths := by
    rw [sourcesBelow_directory, List.map_append, List.map_map, List.map_flatMap]
    refine congrArg₂ _ rfl (List.flatMap_congr fun x hx => ?_)
    rw [(hinner x hx).paths, List.map_map]
    rfl
  mem place := by
    rw [isSource_directory h, List.mem_append, List.mem_map, List.mem_flatMap]
    refine or_congr ?_ (exists_congr fun x => ?_)
    · simp only [List.mem_mergeSort, eq_comm]
    · have hmem : x ∈ subdirectories s entries ↔ x ∈ entries.filterMap (subdirectory? s) := List.mem_mergeSort
      rw [← hmem]
      refine and_congr_right fun hx => ?_
      rw [List.mem_map]
      exact exists_congr fun rest => by rw [(hinner x hx).mem, and_comm, eq_comm]
  ordered := by
    have hne : ∀ x ∈ subdirectories s entries, ∀ place ∈ inner x, place ≠ [] :=
      fun x hx place hplace => (((hinner x hx).mem place).mp hplace).ne_nil
    rw [List.pairwise_append]
    refine ⟨?_, ?_, ?_⟩
    · exact List.pairwise_map.mpr (increasing_mergeSort id (distinct_ownSources h))
    · rw [List.pairwise_flatMap]
      refine ⟨fun x hx => List.pairwise_map.mpr ?_, ?_⟩
      · refine (hinner x hx).ordered.imp_of_mem fun hp hq hpq => ?_
        exact (precedes_inside (hne x hx _ hp) (hne x hx _ hq)).mpr (.inr ⟨rfl, hpq⟩)
      · refine (increasing_mergeSort Prod.fst (distinct_subdirectories h)).imp_of_mem fun hx hy hlt => ?_
        intro place hplace place' hplace'
        obtain ⟨rest, hrest, rfl⟩ := List.mem_map.mp hplace
        obtain ⟨rest', hrest', rfl⟩ := List.mem_map.mp hplace'
        exact (precedes_inside (hne _ hx _ hrest) (hne _ hy _ hrest')).mpr (.inl hlt)
    · intro place hplace place' hplace'
      obtain ⟨name, -, rfl⟩ := List.mem_map.mp hplace
      obtain ⟨x, hx, hplace'⟩ := List.mem_flatMap.mp hplace'
      obtain ⟨rest, hrest, rfl⟩ := List.mem_map.mp hplace'
      exact precedes_file (hne x hx rest hrest)

theorem exists_lists (s : Selection) (leads : String → Bool) (h : Node.NamedBy p tree) (path : String) :
    ∃ places, Lists s leads path tree places := by
  induction h generalizing path with
  | file content => exact ⟨[], lists_leaf (by simp)⟩
  | link target => exact ⟨[], lists_leaf (by simp)⟩
  | @directory entries distinct names below ih =>
    have hinner : ∀ x ∈ subdirectories s entries, ∃ places,
        Lists s leads (join path x.1) (.directory x.2) places := by
      intro x hx
      obtain ⟨hmem, -⟩ := mem_subdirectories.mp (List.mem_mergeSort.mp hx)
      exact ih (x.1, .directory x.2) hmem (join path x.1)
    choose! inner hinner using hinner
    exact ⟨_, lists_directory (.directory distinct names below) hinner⟩

end Tree

/-! ## Trees without links -/

section Collected

variable {d d' : Disk} {s : Selection} {leads : String → Bool} {path : String} {tree tree' : Node}
  {place : List String} {places places' : List (List String)}

theorem collect_eq (h : d.node? path = some tree) :
    collect d s path = sourcesBelow s d.isDirectory path tree := by
  rw [collect, h]

theorem nonempty_of_node? (h : d.node? path = some tree) : path ≠ "" := by
  obtain ⟨goal, hlocate⟩ := exists_locate h
  exact (walk_of_locate hlocate).2.1

/-- Without links, a source is a file. -/
theorem isSource_linkless (hlinkless : tree.Linkless) : IsSource s leads path tree place ↔
    ∃ dirs name content, place = dirs ++ [name] ∧ tree.at? place = some (.file content) ∧
      isSourceFile s.suffixes name = true ∧ ∀ dir ∈ dirs, isSkipped s.skipDirectories dir = false := by
  constructor
  · rintro ⟨⟨dirs, name, rfl, hsource, hskipped⟩, ⟨content, hthere⟩ | ⟨target, hthere, -⟩⟩
    · exact ⟨dirs, name, content, rfl, hthere, hsource, hskipped⟩
    · exact absurd hthere (hlinkless.noLink _ _)
  · rintro ⟨dirs, name, content, rfl, hthere, hsource, hskipped⟩
    exact ⟨⟨dirs, name, rfl, hsource, hskipped⟩, .inl ⟨content, hthere⟩⟩

/-- The paths of sources at different places differ. -/
theorem Lists.nodup (h : Lists s leads path tree places) (htree : tree.NamedBy IsPart) (hne : path ≠ "") :
    (sourcesBelow s leads path tree).Nodup := by
  have hparts : ∀ place ∈ places, place ≠ [] ∧ ∀ part ∈ place, IsPart part := by
    intro place hplace
    have hsource := (h.mem place).mp hplace
    refine ⟨hsource.ne_nil, ?_⟩
    rcases hsource.entry with ⟨_, hthere⟩ | ⟨_, hthere, -⟩ <;> exact htree.names hthere
  rw [h.paths]
  refine List.Nodup.map_on (fun a ha b hb heq => ?_) h.ordered.nodup
  obtain ⟨hane, haparts⟩ := hparts a ha
  obtain ⟨hbne, hbparts⟩ := hparts b hb
  exact Path.joinAll_injective hne hane hbne haparts hbparts heq

/-- The places of sources are told by the files of a tree, and come in one order only. -/
theorem Lists.eq_of_relisted {leads' : String → Bool} (h : Lists s leads path tree places)
    (h' : Lists s leads' path tree' places') (htree : tree.NamedBy IsPart) (hlinkless : tree.Linkless)
    (hlist : tree.Relisted tree') : places = places' := by
  refine h.ordered.eq_of_mem_iff h'.ordered fun place => ?_
  rw [h.mem, h'.mem, isSource_linkless hlinkless, isSource_linkless (hlinkless.relisted hlist htree)]
  simp only [hlist.at?_iff (n := .file _) (by simp) htree]

/-- Collecting the sources below a directory without links gives the paths of just the files that have an
accepted extension and that no skipped directory below it holds, each once, in the order of a walk,
and in whatever order directories list their entries. -/
theorem collect_exact (hroot : d.node? path = some tree) (htree : tree.NamedBy IsPart)
    (hlinkless : tree.Linkless) : ∃ places : List (List String), collect d s path = places.map (joinAll path) ∧
      (∀ place, place ∈ places ↔ ∃ dirs name content, place = dirs ++ [name] ∧
        tree.at? place = some (.file content) ∧ isSourceFile s.suffixes name = true ∧
          ∀ dir ∈ dirs, isSkipped s.skipDirectories dir = false) ∧
      places.Pairwise Precedes ∧ (collect d s path).Nodup ∧
      ∀ d' tree', d'.node? path = some tree' → tree.Relisted tree' →
        collect d' s path = collect d s path := by
  obtain ⟨places, hlists⟩ := exists_lists s d.isDirectory htree path
  rw [collect_eq hroot]
  refine ⟨places, hlists.paths, fun place => ?_, hlists.ordered,
    hlists.nodup htree (nonempty_of_node? hroot), fun d' tree' hroot' hlist => ?_⟩
  · rw [hlists.mem, isSource_linkless hlinkless]
  · obtain ⟨places', hlists'⟩ := exists_lists s d'.isDirectory (htree.relisted hlist) path
    rw [collect_eq hroot', hlists'.paths, hlists.paths,
      hlists.eq_of_relisted hlists' htree hlinkless hlist]

/-- A directory with a skipped one and one with a file among its entries, listed out of order, and then the
other way round. -/
theorem collect_exact_shuffled :
    let file : Node := .file (.text "")
    let entries : List (String × Node) := [("b", .directory [("Z.java", file)]),
      ("build", .directory [("G.java", file)]), ("c.java", file), ("a.txt", file), ("B.java", file)]
    let d : Disk := { top := .directory [("src", .directory entries)] }
    let d' : Disk := { top := .directory [("src", .directory entries.reverse)] }
    d.node? "src" = some (.directory entries) ∧ (Node.directory entries).NamedBy IsPart ∧
      (Node.directory entries).Linkless ∧ d'.node? "src" = some (.directory entries.reverse) ∧
      (Node.directory entries).Relisted (.directory entries.reverse) ∧
      collect d {} "src" = ["src/B.java", "src/c.java", "src/b/Z.java"] ∧
      collect d' {} "src" = collect d {} "src" := by
  intro file entries d d'
  have hsrc : Ordinary "src" ∧ IsPart "src" :=
    ⟨⟨by decide, by decide, by decide, by decide⟩, by decide, by decide⟩
  have hroot : d.node? "src" = some (.directory entries) := node?_top hsrc.1 hsrc.2 (by decide) entries
  have hroot' : d'.node? "src" = some (.directory entries.reverse) :=
    node?_top hsrc.1 hsrc.2 (by decide) entries.reverse
  have hshuffle : (Node.directory entries).Relisted (.directory entries.reverse) :=
    .shuffle (List.reverse_perm entries).symm
  have hfile : file.NamedBy IsPart := .file _
  have hinside (name : String) (hname : IsPart name) : (Node.directory [(name, file)]).NamedBy IsPart :=
    .directory (List.nodup_singleton name) (by simpa using hname) (by simpa using hfile)
  have htree : (Node.directory entries).NamedBy IsPart := by
    refine .directory (by decide) ?_ ?_
    · simp only [entries, List.forall_mem_cons]
      exact ⟨⟨by decide, by decide⟩, ⟨by decide, by decide⟩, ⟨by decide, by decide⟩, ⟨by decide, by decide⟩,
        ⟨by decide, by decide⟩, List.forall_mem_nil _⟩
    · simp only [entries, List.forall_mem_cons]
      exact ⟨hinside _ ⟨by decide, by decide⟩, hinside _ ⟨by decide, by decide⟩, hfile, hfile, hfile,
        List.forall_mem_nil _⟩
  have hlinkless : (Node.directory entries).Linkless := by
    refine ⟨⟨entries, rfl⟩, Node.noLink_directory htree ?_⟩
    have hbelow (name : String) (hname : IsPart name) :=
      Node.noLink_directory (hinside name hname) (by simpa using Node.noLink_file _)
    simp only [entries, List.forall_mem_cons]
    exact ⟨hbelow _ ⟨by decide, by decide⟩, hbelow _ ⟨by decide, by decide⟩, Node.noLink_file _,
      Node.noLink_file _, Node.noLink_file _, List.forall_mem_nil _⟩
  have hcollect : collect d {} "src" = ["src/B.java", "src/c.java", "src/b/Z.java"] := by
    have hown : ownSources {} d.isDirectory "src" entries = ["c.java", "B.java"] := by decide +kernel
    have hinner : ownSources {} d.isDirectory "src/b" [("Z.java", file)] = ["Z.java"] := by decide +kernel
    have hskipped : isSkipped [] "b" = false ∧ isSkipped [] "build" = true := by decide +kernel
    have hsubs : entries.filterMap (subdirectory? {}) = [("b", [("Z.java", file)])] := by
      simp [entries, file, subdirectory?, hskipped]
    have hjoin : join "src" "b" = "src/b" := by decide +kernel
    have hsorted : ["c.java", "B.java"].mergeSort byName = ["B.java", "c.java"] := by
      simp [List.mergeSort, byName]
    have hbelow : sourcesBelow {} d.isDirectory "src/b" (.directory [("Z.java", file)]) = ["src/b/Z.java"] := by
      rw [sourcesBelow_directory, hinner, List.mergeSort_singleton]
      decide +kernel
    rw [collect_eq hroot, sourcesBelow_directory, hown, hsubs, hsorted, List.mergeSort_singleton,
      List.flatMap_singleton, hjoin, hbelow]
    decide +kernel
  obtain ⟨-, -, -, -, -, hlist⟩ := collect_exact (s := {}) hroot htree hlinkless
  exact ⟨hroot, htree, hlinkless, hroot', hshuffle, hcollect, hlist d' _ hroot' hshuffle⟩

end Collected

end ClassAtlas.Files
