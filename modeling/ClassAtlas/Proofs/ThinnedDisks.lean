import ClassAtlas.Proofs.ThinnedTrees

/-! # Disks without some of their sources

Sources that stand below a directory can be taken off a disk: their names are not listed there any more, and
the paths of all others lead where they led. -/

namespace ClassAtlas.Files

open ClassAtlas.Path (IsPart joinAll)

/-! ## Reading -/

section Reading

variable {d : Disk} {q : String}

/-- A path without null characters is read, or the system refuses it. -/
theorem read_cases (hclean : '\x00' ∉ q.toList) :
    (∃ e at', d.read q = .error (.system e at')) ∨ ∃ content, d.read q = .ok content := by
  unfold Disk.read
  split
  · exact .inl ⟨_, _, rfl⟩
  · exact .inr ⟨_, rfl⟩
  · exact .inl ⟨_, _, rfl⟩
  · exact .inl ⟨_, _, rfl⟩
  · next e _ hfound =>
    obtain rfl | hlocate := admitted_error hfound
    · exact .inl ⟨_, _, rfl⟩
    · obtain ⟨-, hnull⟩ | ⟨error, rfl⟩ := locate_error hlocate
      · exact absurd hnull hclean
      · exact .inl ⟨_, _, rfl⟩

theorem read_eq_ok {content : Content} : d.read q = .ok content ↔ d.unreadable q = none ∧
    q.utf8ByteSize ≤ longestPath ∧ ∃ goal, locate d.top true q = .ok (.present goal (.file content)) := by
  unfold Disk.read
  constructor
  · intro h
    split at h <;> try cases h
    next goal hreadable hfound =>
      obtain ⟨hshort, hlocate⟩ := admitted_eq_ok.mp hfound
      exact ⟨hreadable, hshort, goal, hlocate⟩
  · rintro ⟨hreadable, hshort, goal, hlocate⟩
    rw [hreadable, admitted_short hshort, hlocate]

theorem isDirectory_iff : d.isDirectory q = true ↔ q.utf8ByteSize ≤ longestPath ∧
    ∃ goal entries, locate d.top true q = .ok (.present goal (.directory entries)) := by
  constructor
  · intro h
    obtain ⟨entries, hnode⟩ := hasDirectory_of_isDirectory h
    obtain ⟨hshort, goal, hlocate⟩ := node?_eq_some.mp hnode
    exact ⟨hshort, goal, entries, hlocate⟩
  · rintro ⟨hshort, goal, entries, hlocate⟩
    exact HasDirectory.isDirectory ⟨entries, node?_eq_some.mpr ⟨hshort, goal, hlocate⟩⟩

theorem isDirectory_eq_false
    (h : ∀ goal entries, locate d.top true q ≠ .ok (.present goal (.directory entries))) :
    d.isDirectory q = false := by
  rw [← Bool.not_eq_true, isDirectory_iff]
  rintro ⟨-, goal, entries, hlocate⟩
  exact h goal entries hlocate

end Reading

/-! ## The disk without some files -/

/-- A name that an entry of a directory can have. -/
structure EntryName (name : String) : Prop where
  ordinary : Ordinary name
  part : IsPart name
  clean : '\x00' ∉ name.toList

/-- Whether one of some paths names what stands at a place; a link at its end is not followed. -/
def Disk.names (d : Disk) (paths : List String) (place : List String) : Bool :=
  paths.any fun p =>
    match locate d.top false p with
    | .ok (.present place' _) => place' == place
    | _ => false

/-- The disk without what some paths name. -/
def Disk.without (d : Disk) (paths : List String) : Disk :=
  { d with top := d.top.prune (d.names paths) [] }

/-- Two paths lead to the same node. -/
def Disk.LeadsSame (d : Disk) (p q : String) : Prop :=
  ∃ place n, locate d.top true p = .ok (.present place n) ∧ locate d.top true q = .ok (.present place n)

theorem names_eq_true {d : Disk} {paths : List String} {place : List String} :
    d.names paths place = true ↔ ∃ p ∈ paths, ∃ n, locate d.top false p = .ok (.present place n) := by
  rw [Disk.names, List.any_eq_true]
  refine exists_congr fun p => and_congr_right fun _ => ?_
  split
  · next place' n hlocate =>
    rw [hlocate]
    constructor
    · intro heq
      obtain rfl : place' = place := by simpa using heq
      exact ⟨n, rfl⟩
    · rintro ⟨n', heq⟩
      cases heq
      exact beq_self_eq_true _
  · next hother =>
    simp only [Bool.false_eq_true, false_iff, not_exists]
    exact fun n hlocate => hother place n hlocate

/-! ## Sources of a tree at a place -/

/-- A path leads to a directory, a tree of entries with good names; what is joined to the path is walked from
there, with so many links left. -/
structure Rooted (d : Disk) (path : String) (tree : Node) (root : List String) (links : Nat) : Prop where
  short : path.utf8ByteSize ≤ longestPath
  here : locate d.top true path = .ok (.present root tree)
  directory : ∃ entries, tree = .directory entries
  named : tree.NamedBy EntryName
  walked : ∀ follow parts, parts ≠ [] → (∀ part ∈ parts, EntryName part) →
    locate d.top follow (joinAll path parts) =
      (walkLinks d.top follow links root parts).mapError fun e => .system e (joinAll path parts)

section Rooted

variable {d : Disk} {s : Selection} {path : String} {tree : Node} {root : List String} {links : Nat}

theorem at?_of_locate {follow : Bool} {n : Node} (h : locate d.top follow path = .ok (.present root n)) :
    d.top.at? root = some n :=
  (finds_of_walk (walk_of_locate h).2.2).at?_goal

/-- What a path leads to without some files it leads to with them. -/
theorem locate_of_thinned {d' : Disk} {gone : List String → Prop} (hthinned : Node.Thinned gone d.top d'.top)
    {follow : Bool} {goal : List String} {n : Node} (h : locate d'.top follow path = .ok (.present goal n)) :
    ∃ n', locate d.top follow path = .ok (.present goal n') ∧ Node.Alike (some n') (some n) := by
  obtain ⟨hclean, hne, hwalk⟩ := walk_of_locate h
  obtain ⟨n', hn', halike⟩ := (finds_of_walk hwalk).of_thinned hthinned
  exact ⟨n', (locate_eq_ok hclean hne).mpr hn'.walk, halike⟩

/-- With and without some files, what is joined to a path is walked from the same place with as many links
left. -/
theorem exists_rooted_both {d' : Disk} {gone : List String → Prop} {entries entries' : List (String × Node)}
    (hthinned : Node.Thinned gone d.top d'.top) (hroot : d.node? path = some (.directory entries))
    (hroot' : d'.node? path = some (.directory entries')) (hnamed : (Node.directory entries).NamedBy EntryName)
    (hnamed' : (Node.directory entries').NamedBy EntryName) :
    ∃ root links, Rooted d path (.directory entries) root links ∧
      Rooted d' path (.directory entries') root links := by
  obtain ⟨hshort, root, hlocate⟩ := node?_eq_some.mp hroot
  obtain ⟨root', hlocate'⟩ := exists_locate hroot'
  obtain ⟨m, hm, -⟩ := locate_of_thinned hthinned hlocate'
  obtain ⟨rfl, -⟩ : root = root' ∧ _ := by simpa using hlocate.symm.trans hm
  obtain ⟨hclean, hne, -⟩ := walk_of_locate hlocate
  obtain ⟨-, -, hwalk'⟩ := walk_of_locate hlocate'
  obtain ⟨before, -, hbefore, hjoin⟩ := Path.exists_splitOn_joinAll hne
  have hleads : Leads d'.top mostLinks [] before root :=
    (leads_of_walk hwalk').congr_names (by rw [hbefore, Path.names_eq])
  obtain ⟨links, hlinks⟩ := exists_resumed hthinned hleads
  have hparts (parts : List String) (hmore : parts ≠ []) (h : ∀ part ∈ parts, EntryName part) :
      '\x00' ∉ (joinAll path parts).toList ∧ joinAll path parts ≠ "" ∧
        (joinAll path parts).splitOn "/" = before ++ parts :=
    ⟨Path.not_mem_joinAll hclean (fun part hpart => (h part hpart).clean) (by decide),
      hjoin parts hmore fun part hpart => (h part hpart).part⟩
  refine ⟨root, links, ⟨hshort, hlocate, ⟨entries, rfl⟩, hnamed, fun follow parts hmore h => ?_⟩,
    ⟨hshort, hlocate', ⟨entries', rfl⟩, hnamed', fun follow parts hmore h => ?_⟩⟩
  · obtain ⟨hclean, hne, hsplit⟩ := hparts parts hmore h
    rw [locate_eq hclean hne, hsplit, (hlinks follow parts (.inl hmore)).1]
  · obtain ⟨hclean, hne, hsplit⟩ := hparts parts hmore h
    rw [locate_eq hclean hne, hsplit, (hlinks follow parts (.inl hmore)).2]

theorem exists_rooted {entries : List (String × Node)} (hnamed : (Node.directory entries).NamedBy EntryName)
    (hroot : d.node? path = some (.directory entries)) :
    ∃ root links, Rooted d path (.directory entries) root links := by
  obtain ⟨root, links, h, -⟩ := exists_rooted_both (Node.thinned_refl d.top) hroot hroot hnamed hnamed
  exact ⟨root, links, h⟩

/-- A directory at the top, by its name. -/
theorem rooted_top {name : String} {entries : List (String × Node)} (hname : EntryName name)
    (hthere : d.top.at? [name] = some (.directory entries))
    (hnamed : (Node.directory entries).NamedBy EntryName) :
    Rooted d name (.directory entries) [name] mostLinks := by
  have hend : name.endsWith "/" = false := by simpa using hname.part.not_endsWith ""
  have hsplit : name.splitOn "/" = [name] := Path.splitOn_piece Path.separates_slash hname.part.plain
  have hwalk (follow : Bool) (parts : List String) :
      walkLinks d.top follow mostLinks [] (name :: parts) =
        walkLinks d.top follow mostLinks [name] parts := by
    rw [walkLinks_eq, walk_ordinary hname.ordinary, List.nil_append, hthere]
  refine ⟨hname.ordinary.short.trans (by decide), ?_, ⟨entries, rfl⟩, hnamed,
    fun follow parts hmore h => ?_⟩
  · rw [locate_eq_ok hname.clean hname.part.nonempty, hsplit, hwalk, walkLinks_eq, walk, hthere]
  · obtain ⟨hne, hsplit'⟩ :=
      Path.splitOn_joinAll hend hname.part.nonempty fun part hpart => (h part hpart).part
    have hclean := Path.not_mem_joinAll hname.clean (fun part hpart => (h part hpart).clean) (by decide)
    rw [locate_eq hclean hne, hsplit', hsplit, List.singleton_append, hwalk]

/-- A node that is no directory stands in a directory below a place. -/
structure Standing (top : Node) (root dirs : List String) (name : String) (n : Node) : Prop where
  names : ∀ part ∈ dirs ++ [name], EntryName part
  directory : ∃ entries, top.at? (root ++ dirs) = some (.directory entries)
  there : top.at? (root ++ (dirs ++ [name])) = some n
  leaf : ∀ entries, n ≠ .directory entries

theorem Rooted.clean (h : Rooted d path tree root links) : '\x00' ∉ path.toList :=
  (walk_of_locate h.here).1

theorem Rooted.nonempty (h : Rooted d path tree root links) : path ≠ "" :=
  (walk_of_locate h.here).2.1

theorem Rooted.there (h : Rooted d path tree root links) : d.top.at? root = some tree :=
  at?_of_locate h.here

theorem Rooted.node? (h : Rooted d path tree root links) : d.node? path = some tree :=
  node?_eq_some.mpr ⟨h.short, _, h.here⟩

/-- A link to its own directory can be named, and takes one link. -/
theorem Rooted.loop (h : Rooted d path tree root (links + 1)) {name : String} (hname : EntryName name)
    (hshort : (Path.join path name).utf8ByteSize ≤ longestPath) (hlink : tree.at? [name] = some (.link ".")) : Rooted d (Path.join path name) tree root links := by
  have hthere : d.top.at? (root ++ [name]) = some (.link ".") := by
    rw [Node.at?_append, h.there, Option.bind_some, hlink]
  have hpoint : ".".splitOn "/" = ["."] := Path.splitOn_piece Path.separates_slash (by decide)
  have hwalk (follow : Bool) (parts : List String) (hgoes : parts ≠ [] ∨ follow = true) :
      walkLinks d.top follow (links + 1) root (name :: parts) = walkLinks d.top follow links root parts := by
    have hgoes := goes_iff.mpr hgoes
    have hstart : ".".startsWith "/" = false := by decide +kernel
    rw [walkLinks_eq, walk_ordinary hname.ordinary, hthere]
    simp only [hgoes, hstart, hpoint, Bool.false_eq_true, if_false]
    show walkLinks d.top follow links root ("." :: parts) = _
    rw [walkLinks_eq, walk_idle (.inr rfl)]
  refine ⟨hshort, ?_, h.directory, h.named, fun follow parts hmore hparts => ?_⟩
  · show locate d.top true (joinAll path [name]) = _
    rw [h.walked true [name] (by simp) (by simpa using hname), hwalk true [] (.inr rfl), walkLinks_eq, walk,
      h.there]
    rfl
  · rw [← Path.joinAll_cons,
      h.walked follow (name :: parts) (by simp) (List.forall_mem_cons.mpr ⟨hname, hparts⟩), hwalk follow parts (.inl hmore)]

/-- It can be named over and over, and takes a link each time. -/
theorem Rooted.loops {k : Nat} (h : Rooted d path tree root (links + k)) {name : String}
    (hname : EntryName name) (hshort : (joinAll path (List.replicate k name)).utf8ByteSize ≤ longestPath)
    (hlink : tree.at? [name] = some (.link ".")) :
    Rooted d (joinAll path (List.replicate k name)) tree root links := by
  induction k generalizing path with
  | zero => exact h
  | succ k ih =>
    rw [List.replicate_succ, Path.joinAll_cons] at hshort ⊢
    have hparts : ∀ part ∈ List.replicate k name, IsPart part := fun part hpart =>
      List.eq_of_mem_replicate hpart ▸ hname.part
    exact ih (h.loop hname ((Path.size_le_joinAll hparts).trans hshort) hlink) hshort

theorem Rooted.at? (h : Rooted d path tree root links) (place : List String) :
    d.top.at? (root ++ place) = tree.at? place := by
  rw [Node.at?_append, h.there, Option.bind_some]

theorem Rooted.standing_of_at? (h : Rooted d path tree root links) (dirs : List String) {name : String}
    {n : Node} (hthere : tree.at? (dirs ++ [name]) = some n) (hleaf : ∀ entries, n ≠ .directory entries) :
    Standing d.top root dirs name n := by
  refine ⟨h.named.names hthere, ?_, (h.at? _).trans hthere, hleaf⟩
  rw [Node.at?_append] at hthere
  obtain ⟨parent, hparent, hentry⟩ := Option.bind_eq_some_iff.mp hthere
  obtain ⟨entries, rfl⟩ := Node.eq_directory_of_at? hentry
  exact ⟨entries, (h.at? dirs).trans hparent⟩

theorem Rooted.standing (h : Rooted d path tree root links) {leads : String → Bool} {place : List String}
    (hsource : IsSource s leads path tree place) :
    ∃ dirs name n, place = dirs ++ [name] ∧ Standing d.top root dirs name n := by
  obtain ⟨dirs, name, rfl, -⟩ := hsource.accepted
  rcases hsource.entry with ⟨content, hthere⟩ | ⟨target, hthere, -⟩
  · exact ⟨dirs, name, _, rfl, h.standing_of_at? dirs hthere nofun⟩
  · exact ⟨dirs, name, _, rfl, h.standing_of_at? dirs hthere nofun⟩

section Standing

variable {top : Node} {dirs : List String} {name : String} {n : Node}

theorem Standing.walk (h : Standing top root dirs name n) (follow : Bool) :
    walkLinks top follow links root (dirs ++ [name]) = match n with
      | .link target =>
        if follow then behind top follow links (linkStart target (root ++ dirs)) (target.splitOn "/")
        else .ok (.present (root ++ (dirs ++ [name])) (.link target))
      | n => .ok (.present (root ++ (dirs ++ [name])) n) := by
  have hname : EntryName name := h.names name (by simp)
  have hdirs : ∀ dir ∈ dirs, Ordinary dir := fun dir hdir => (h.names dir (by simp [hdir])).ordinary
  have hthere := h.there
  rw [← List.append_assoc] at hthere ⊢
  rw [walk_descend hdirs h.directory, walkLinks_eq, walk_ordinary hname.ordinary, hthere]
  cases n with
  | directory entries => exact absurd rfl (h.leaf entries)
  | file content => rfl
  | link target => cases follow <;> simp [linkStart]

theorem Rooted.locate_named (h : Rooted d path tree root links) (hst : Standing d.top root dirs name n) :
    locate d.top false (joinAll path (dirs ++ [name])) = .ok (.present (root ++ (dirs ++ [name])) n) := by
  rw [h.walked false _ (by simp) hst.names, hst.walk]
  cases n <;> rfl

theorem Rooted.locate_file (h : Rooted d path tree root links) {content : Content}
    (hst : Standing d.top root dirs name (.file content)) :
    locate d.top true (joinAll path (dirs ++ [name])) =
      .ok (.present (root ++ (dirs ++ [name])) (.file content)) := by
  rw [h.walked true _ (by simp) hst.names, hst.walk]
  rfl

/-- What is found on a way through a link, the link itself leads to, unless it leads to a directory. -/
theorem Rooted.locate_link (h : Rooted d path tree root links) {target : String}
    (hst : Standing d.top root dirs name (.link target))
    (hshort : (joinAll path (dirs ++ [name])).utf8ByteSize ≤ longestPath) {k : Nat} (hk : k < links) {rest goal : List String}
    {m : Node} (hfinds : Finds d.top true k (linkStart target (root ++ dirs)) (target.splitOn "/" ++ rest) goal m) :
    locate d.top true (joinAll path (dirs ++ [name])) = .ok (.present goal m) ∨
      d.isDirectory (joinAll path (dirs ++ [name])) = true := by
  obtain ⟨links, rfl⟩ : ∃ links', links = links' + 1 := ⟨links - 1, by omega⟩
  have hlocate : locate d.top true (joinAll path (dirs ++ [name])) =
      (walkLinks d.top true links (linkStart target (root ++ dirs)) (target.splitOn "/")).mapError
        fun e => .system e (joinAll path (dirs ++ [name])) := by
    rw [h.walked true _ (by simp) hst.names, hst.walk]
    rfl
  by_cases hrest : rest = []
  · subst hrest
    rw [List.append_nil] at hfinds
    rw [hlocate, (hfinds.mono (by omega)).walk]
    exact .inl rfl
  · obtain ⟨mid, hmid⟩ := hfinds.leads_before hrest (Finds.at?_linkStart hst.directory)
    obtain ⟨entries, hentries⟩ := hmid.exists_directory
    have hthere := hmid.walk_here
    rw [hentries] at hthere
    rw [((finds_of_walk hthere).mono (by omega)).walk] at hlocate
    exact .inr (isDirectory_iff.mpr ⟨hshort, _, _, hlocate⟩)

end Standing

end Rooted

/-! ## Without the files that cannot be read -/

section Without

variable {d : Disk} {s : Selection} {r : Reading} {path : String} {tree : Node} {root : List String}
  {links : Nat} {places : List (List String)} {missing : List String}

theorem Rooted.not_isDirectory (h : Rooted d path tree root links) {place : List String}
    (hsource : IsSource s d.isDirectory path tree place) : d.isDirectory (joinAll path place) = false := by
  rcases hsource.entry with ⟨content, hthere⟩ | ⟨target, -, hleads⟩
  · obtain ⟨dirs, name, n, rfl, hst⟩ := h.standing hsource
    obtain rfl : n = .file content := Option.some.inj (hst.there.symm.trans ((h.at? _).trans hthere))
    exact isDirectory_eq_false fun _ _ => by rw [h.locate_file hst]; nofun
  · exact hleads

theorem mem_collect (h : Rooted d path tree root links) {p : String} :
    p ∈ collect d s path ↔ ∃ place, IsSource s d.isDirectory path tree place ∧ joinAll path place = p := by
  obtain ⟨places, hlists⟩ := exists_lists s d.isDirectory h.named path
  rw [collect_eq h.node?, hlists.paths, List.mem_map]
  simp only [hlists.mem]

section Missing

variable (h : Rooted d path tree root links) (hsources : ∀ p ∈ missing, p ∈ collect d s path)

include h hsources

/-- What is missing are sources of the tree. -/
theorem exists_missing {g : List String} (hgone : d.names missing g = true) :
    ∃ dirs name n, g = root ++ (dirs ++ [name]) ∧ Standing d.top root dirs name n ∧
      IsSource s d.isDirectory path tree (dirs ++ [name]) ∧ joinAll path (dirs ++ [name]) ∈ missing := by
  obtain ⟨p, hp, n, hlocate⟩ := names_eq_true.mp hgone
  obtain ⟨place, hsource, rfl⟩ := (mem_collect h).mp (hsources p hp)
  obtain ⟨dirs, name, n', rfl, hst⟩ := h.standing hsource
  obtain ⟨rfl, -⟩ : root ++ (dirs ++ [name]) = g ∧ _ := by
    simpa using (h.locate_named hst).symm.trans hlocate
  exact ⟨dirs, name, n', rfl, hst, hsource, hp⟩

theorem thinned_without : Node.Thinned (d.names missing · = true) d.top (d.without missing).top := by
  refine Node.thinned_prune ?_ fun g entries hgone hthere => ?_
  · obtain ⟨entries, rfl⟩ := h.directory
    obtain ⟨entries, htop⟩ := Leads.at?_top h.there
    rw [Node.at?_nil] at htop
    exact ⟨entries, Option.some.inj htop⟩
  · obtain ⟨dirs, name, n, rfl, hst, -, -⟩ := exists_missing h hsources hgone
    exact hst.leaf entries (Option.some.inj (hst.there.symm.trans hthere))

/-- What a path leads to is still there if it is not missing, and nothing that is missing leads to it. -/
theorem locate_without (hshort : ∀ p ∈ missing, p.utf8ByteSize ≤ longestPath) {tree' : Node}
    (h' : Rooted (d.without missing) path tree' root links) {parts goal : List String} {m : Node} (hmore : parts ≠ []) (hparts : ∀ part ∈ parts, EntryName part)
    (hlocate : locate d.top true (joinAll path parts) = .ok (.present goal m))
    (hgoal : ¬ d.names missing goal = true)
    (hother : ∀ p ∈ missing, locate d.top true p ≠ .ok (.present goal m)) :
    ∃ m', locate (d.without missing).top true (joinAll path parts) = .ok (.present goal m') ∧
      Node.Alike (some m) (some m') := by
  rw [h.walked true parts hmore hparts, Document.mapError_eq_ok] at hlocate
  have hlinks : ∀ place name target, d.names missing (place ++ [name]) = true →
      d.top.at? (place ++ [name]) = some (.link target) → ∀ k < links, ∀ rest,
        ¬ Finds d.top true k (linkStart target place) (target.splitOn "/" ++ rest) goal m := by
    intro place name target hgone hlink k hk rest hfinds
    obtain ⟨dirs, name', n, heq, hst, hsource, hmissing⟩ := exists_missing h hsources hgone
    rw [← List.append_assoc] at heq
    obtain ⟨rfl, hname⟩ := List.append_inj' heq rfl
    obtain rfl : name = name' := by simpa using hname
    rw [List.append_assoc] at hlink
    obtain rfl : n = .link target := Option.some.inj (hst.there.symm.trans hlink)
    rcases h.locate_link hst (hshort _ hmissing) hk hfinds with hsame | hdir
    · exact hother _ hmissing hsame
    · rw [h.not_isDirectory hsource] at hdir
      cases hdir
  obtain ⟨m', hm', halike⟩ := (finds_of_walk hlocate).thinned (thinned_without h hsources) hgoal hlinks
  exact ⟨m', by rw [h'.walked true parts hmore hparts, hm'.walk]; rfl, halike⟩

theorem isDirectory_of_without {x : String} (hdir : (d.without missing).isDirectory x = true) :
    d.isDirectory x = true := by
  obtain ⟨hx, goal, entries, hlocate⟩ := isDirectory_iff.mp hdir
  obtain ⟨m, hm, halike⟩ := locate_of_thinned (thinned_without h hsources) hlocate
  cases halike
  exact isDirectory_iff.mpr ⟨hx, goal, _, hm⟩

theorem isDirectory_without (hshort : ∀ p ∈ missing, p.utf8ByteSize ≤ longestPath) {tree' : Node}
    (h' : Rooted (d.without missing) path tree' root links) {parts : List String} (hmore : parts ≠ []) (hparts : ∀ part ∈ parts, EntryName part) :
    (d.without missing).isDirectory (joinAll path parts) = d.isDirectory (joinAll path parts) := by
  rw [Bool.eq_iff_iff]
  refine ⟨isDirectory_of_without h hsources, fun hdir => ?_⟩
  obtain ⟨hparts', goal, entries, hlocate⟩ := isDirectory_iff.mp hdir
  have hgoal : ¬ d.names missing goal = true := fun hgone =>
    (thinned_without h hsources).leaf goal entries hgone (at?_of_locate hlocate)
  have hother : ∀ p ∈ missing, locate d.top true p ≠ .ok (.present goal (.directory entries)) := by
    intro p hp hp'
    obtain ⟨place, hsource, rfl⟩ := (mem_collect h).mp (hsources p hp)
    have hnot := h.not_isDirectory hsource
    rw [isDirectory_iff.mpr ⟨hshort _ hp, goal, entries, hp'⟩] at hnot
    cases hnot
  obtain ⟨m', hm', halike⟩ := locate_without h hsources hshort h' hmore hparts hlocate hgoal hother
  cases halike
  exact isDirectory_iff.mpr ⟨hparts', goal, _, hm'⟩

section Both

variable {tree' n : Node} (h' : Rooted (d.without missing) path tree' root links) {place : List String}

include h'

theorem at?_without (place : List String) (hn : ∀ entries, n ≠ .directory entries) : tree'.at? place = some n ↔
    tree.at? place = some n ∧ ¬ d.names missing (root ++ place) = true := by
  rw [← h.at?, ← h'.at?, (thinned_without h hsources).at?_iff hn]

variable (hshort : ∀ p ∈ missing, p.utf8ByteSize ≤ longestPath)

include hshort

theorem isSource_without : IsSource s (d.without missing).isDirectory path tree' place ↔
    IsSource s d.isDirectory path tree place ∧ joinAll path place ∉ missing := by
  have hfiles (content : Content) := at?_without h hsources h' (n := .file content) place nofun
  have hlinks (target : String) := at?_without h hsources h' (n := .link target) place nofun
  constructor
  · intro hsource
    have hgoes : (∃ content, tree.at? place = some (.file content)) ∨
        ∃ target, tree.at? place = some (.link target) ∧ d.isDirectory (joinAll path place) = false := by
      rcases hsource.entry with ⟨content, hfile⟩ | ⟨target, hlink, hleads⟩
      · exact .inl ⟨content, ((hfiles content).mp hfile).1⟩
      · rw [isDirectory_without h hsources hshort h' hsource.ne_nil (h'.named.names hlink)] at hleads
        exact .inr ⟨target, ((hlinks target).mp hlink).1, hleads⟩
    have hold : IsSource s d.isDirectory path tree place := ⟨hsource.accepted, hgoes⟩
    refine ⟨hold, fun hmissing => ?_⟩
    obtain ⟨dirs, name, n, rfl, hst⟩ := h.standing hold
    have hgone : d.names missing (root ++ (dirs ++ [name])) = true :=
      names_eq_true.mpr ⟨_, hmissing, n, h.locate_named hst⟩
    rcases hsource.entry with ⟨content, hfile⟩ | ⟨target, hlink, -⟩
    · exact ((hfiles content).mp hfile).2 hgone
    · exact ((hlinks target).mp hlink).2 hgone
  · rintro ⟨hsource, hkept⟩
    have hnot : ¬ d.names missing (root ++ place) = true := by
      intro hgone
      obtain ⟨dirs, name, n, heq, -, -, hmissing⟩ := exists_missing h hsources hgone
      obtain rfl := List.append_cancel_left heq
      exact hkept hmissing
    refine ⟨hsource.accepted, ?_⟩
    rcases hsource.entry with ⟨content, hfile⟩ | ⟨target, hlink, hleads⟩
    · exact .inl ⟨content, (hfiles content).mpr ⟨hfile, hnot⟩⟩
    · rw [← isDirectory_without h hsources hshort h' hsource.ne_nil (h.named.names hlink)] at hleads
      exact .inr ⟨target, (hlinks target).mpr ⟨hlink, hnot⟩, hleads⟩

/-- What is collected without some of the sources are the others, in the same order. -/
theorem collect_without :
    collect (d.without missing) s path = (collect d s path).filter (· ∉ missing) := by
  obtain ⟨places, hlists⟩ := exists_lists s d.isDirectory h.named path
  obtain ⟨places', hlists'⟩ := exists_lists s (d.without missing).isDirectory h'.named path
  have hplaces : places' = places.filter fun place => joinAll path place ∉ missing := by
    refine hlists'.ordered.eq_of_mem_iff (hlists.ordered.filter _) fun place => ?_
    rw [hlists'.mem, isSource_without h hsources h' hshort, List.mem_filter, hlists.mem, decide_eq_true_iff]
  rw [collect_eq h'.node?, collect_eq h.node?, hlists'.paths, hlists.paths, hplaces, List.filter_map]
  rfl

/-- Others than the missing are read as before, unless they lead to a file that one of these leads to. -/
theorem read_without {q : String} {content : Content} (hq : q ∈ collect d s path) (hkept : q ∉ missing)
    (hsame : ∀ p ∈ missing, ∀ q ∈ collect d s path, d.LeadsSame p q → q ∈ missing)
    (hread : d.read q = .ok content) : (d.without missing).read q = .ok content := by
  obtain ⟨hreadable, hq', goal, hlocate⟩ := read_eq_ok.mp hread
  have hother : ∀ p ∈ missing, locate d.top true p ≠ .ok (.present goal (.file content)) :=
    fun p hp hlocate' => hkept (hsame p hp q hq ⟨goal, _, hlocate', hlocate⟩)
  have hgoal : ¬ d.names missing goal = true := by
    intro hgone
    obtain ⟨dirs, name, n, rfl, hst, -, hmissing⟩ := exists_missing h hsources hgone
    obtain rfl : n = .file content := Option.some.inj (hst.there.symm.trans (at?_of_locate hlocate))
    exact hother _ hmissing (h.locate_file hst)
  obtain ⟨place, hsource, rfl⟩ := (mem_collect h).mp hq
  obtain ⟨dirs, name, n, rfl, hst⟩ := h.standing hsource
  obtain ⟨m', hm', halike⟩ := locate_without h hsources hshort h' hsource.ne_nil hst.names hlocate hgoal hother
  cases halike
  exact read_eq_ok.mpr ⟨hreadable, hq', goal, hm'⟩

end Both

/-- What a directory still leads to without the missing has good names. -/
theorem named_without {tree' : Node} (hroot' : (d.without missing).node? path = some tree') :
    tree'.NamedBy EntryName := by
  obtain ⟨goal, hlocate'⟩ := exists_locate hroot'
  obtain ⟨m, hm, -⟩ := locate_of_thinned (thinned_without h hsources) hlocate'
  obtain ⟨rfl, rfl⟩ : root = goal ∧ tree = m := by simpa using h.here.symm.trans hm
  obtain ⟨n, hn, rfl⟩ := Node.exists_of_prune (at?_of_locate hlocate')
  obtain rfl : tree = n := Option.some.inj (h.there.symm.trans hn)
  exact h.named.prune

end Missing

end Without

end ClassAtlas.Files
