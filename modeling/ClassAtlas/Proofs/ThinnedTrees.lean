import ClassAtlas.Proofs.CollectedSources

/-! # Trees without some of their files

Files and links can be taken out of a tree. A walk that succeeds without them succeeds with them, and a
walk that succeeds with them succeeds without them, unless it ends at one of them or follows one. -/

namespace ClassAtlas.Files

open ClassAtlas.Path (IsIdle)

namespace Node

/-! ## Pruning -/

mutual
/-- The tree at a place, without the entries at places that are gone. -/
def prune (gone : List String → Bool) (here : List String) : Node → Node
  | .directory entries => .directory (pruneAmong gone here entries)
  | n => n

def pruneAmong (gone : List String → Bool) (here : List String) :
    List (String × Node) → List (String × Node)
  | [] => []
  | (name, n) :: rest =>
    if gone (here ++ [name]) then pruneAmong gone here rest
    else (name, prune gone (here ++ [name]) n) :: pruneAmong gone here rest
end

/-- A node but for what is in it. -/
def shell : Node → Node
  | directory _ => directory []
  | n => n

section Pruning

variable {gone : List String → Bool} {here place : List String} {n : Node} {name : String}
  {entries : List (String × Node)} {p : String → Prop}

theorem lookup_pruneAmong : (pruneAmong gone here entries).lookup name =
    if gone (here ++ [name]) then none
    else (entries.lookup name).map (prune gone (here ++ [name])) := by
  induction entries with
  | nil => simp [pruneAmong]
  | cons e entries ih =>
    obtain ⟨k, m⟩ := e
    rw [pruneAmong, List.lookup_cons]
    by_cases hk : name = k
    · subst hk
      split
      · next hgone => rw [ih, if_pos hgone]
      · simp
    · rw [beq_eq_false_iff_ne.mpr hk]
      split
      · exact ih
      · rw [List.lookup_cons, beq_eq_false_iff_ne.mpr hk]
        exact ih

theorem at?_prune_gone {front : List String} (hne : front ≠ []) (hfront : front <+: place)
    (hgone : gone (here ++ front) = true) : (prune gone here n).at? place = none := by
  induction place generalizing here n front with
  | nil => exact absurd (List.prefix_nil.mp hfront) hne
  | cons name place ih =>
    obtain ⟨first, front, rfl⟩ := List.exists_cons_of_ne_nil hne
    obtain ⟨rfl, hrest⟩ := List.cons_prefix_cons.mp hfront
    cases n with
    | file content => rfl
    | link target => rfl
    | directory entries =>
      rw [prune, at?_cons, lookup_pruneAmong]
      split
      · rfl
      · next hkept =>
        have hne : front ≠ [] := by
          rintro rfl
          exact hkept hgone
        cases entries.lookup first with
        | none => rfl
        | some m => exact ih hne hrest (by simpa using hgone)

theorem at?_prune_kept (hkept : ∀ front, front ≠ [] → front <+: place → gone (here ++ front) = false) :
    (prune gone here n).at? place = (n.at? place).map (prune gone (here ++ place)) := by
  induction place generalizing here n with
  | nil => simp
  | cons name place ih =>
    cases n with
    | file content => rfl
    | link target => rfl
    | directory entries =>
      have hname : gone (here ++ [name]) = false := hkept [name] (by simp) (by simp)
      rw [prune, at?_cons, lookup_pruneAmong, hname, if_neg Bool.false_ne_true, at?_cons]
      cases entries.lookup name with
      | none => rfl
      | some m =>
        have hrest : ∀ front, front ≠ [] → front <+: place → gone (here ++ [name] ++ front) = false := by
          intro front _ hfront
          have h := hkept (name :: front) (by simp) (List.cons_prefix_cons.mpr ⟨rfl, hfront⟩)
          rwa [List.append_assoc]
        have h := ih (n := m) hrest
        rwa [List.append_assoc] at h

/-- What is left at a place is what was there, pruned. -/
theorem exists_of_prune {m : Node} (h : (prune gone here n).at? place = some m) :
    ∃ n', n.at? place = some n' ∧ m = prune gone (here ++ place) n' := by
  by_cases hclear : ∀ front, front ≠ [] → front <+: place → gone (here ++ front) = false
  · rw [at?_prune_kept hclear] at h
    obtain ⟨n', hn', rfl⟩ := Option.map_eq_some_iff.mp h
    exact ⟨n', hn', rfl⟩
  · simp only [not_forall, Bool.not_eq_false] at hclear
    obtain ⟨front, hne, hfront, hgone⟩ := hclear
    rw [at?_prune_gone hne hfront hgone] at h
    cases h

theorem shell_prune : (prune gone here n).shell = n.shell := by
  cases n <;> rfl

theorem mem_pruneAmong {m : Node} (h : (name, m) ∈ pruneAmong gone here entries) :
    ∃ n, (name, n) ∈ entries ∧ m = n.prune gone (here ++ [name]) := by
  induction entries with
  | nil => cases h
  | cons e entries ih =>
    obtain ⟨k, n⟩ := e
    have hrest : (name, m) ∈ pruneAmong gone here entries →
        ∃ n', (name, n') ∈ (k, n) :: entries ∧ m = n'.prune gone (here ++ [name]) := fun h => by
      obtain ⟨n', hn', heq⟩ := ih h
      exact ⟨n', List.mem_cons_of_mem _ hn', heq⟩
    rw [pruneAmong] at h
    split at h
    · exact hrest h
    · rcases List.mem_cons.mp h with heq | h
      · cases heq
        exact ⟨n, List.mem_cons_self, rfl⟩
      · exact hrest h

theorem names_pruneAmong : ((pruneAmong gone here entries).map (·.1)).Sublist (entries.map (·.1)) := by
  induction entries with
  | nil => exact .slnil
  | cons e entries ih =>
    rw [pruneAmong]
    split
    · exact ih.cons _
    · exact ih.cons_cons _

theorem NamedBy.prune (h : NamedBy p n) : NamedBy p (n.prune gone here) := by
  induction h generalizing here with
  | file content => exact .file content
  | link target => exact .link target
  | @directory entries distinct names _ ih =>
    refine .directory (names_pruneAmong.nodup distinct) ?_ ?_
    · rintro ⟨name, m⟩ hm
      obtain ⟨n, hn, -⟩ := mem_pruneAmong hm
      exact names (name, n) hn
    · rintro ⟨name, m⟩ hm
      obtain ⟨n, hn, rfl⟩ := mem_pruneAmong hm
      exact ih (name, n) hn

end Pruning

/-! ## Trees with and without -/

/-- The second tree lacks what stands at some places of the first, which are no directories. -/
structure Thinned (gone : List String → Prop) (top top' : Node) : Prop where
  leaf : ∀ place entries, gone place → top.at? place ≠ some (.directory entries)
  lacks : ∀ place, gone place → top'.at? place = none
  kept : ∀ place, ¬ gone place → (top'.at? place).map shell = (top.at? place).map shell

/-- A place holds the same in both trees, but for the entries of a directory. -/
inductive Alike : Option Node → Option Node → Prop
  | none : Alike none none
  | file (content : Content) : Alike (some (file content)) (some (file content))
  | link (target : String) : Alike (some (link target)) (some (link target))
  | directory (entries entries' : List (String × Node)) :
    Alike (some (directory entries)) (some (directory entries'))

section Thinning

variable {gone : List String → Prop} {top top' n : Node} {place : List String}
  {entries : List (String × Node)}

theorem alike_of_shell {n? n'? : Option Node} (h : n'?.map shell = n?.map shell) : Alike n? n'? := by
  rcases n? with - | content | entries | target <;> rcases n'? with - | content' | entries' | target' <;>
    simp [shell] at h
  all_goals first | exact .none | exact .directory _ _ | subst h
  · exact .file _
  · exact .link _

theorem Alike.exists_left {n? : Option Node} (h : Alike n? (some n)) :
    ∃ m, n? = some m ∧ Alike (some m) (some n) := by
  rcases n? with - | m
  · cases h
  · exact ⟨m, rfl, h⟩

theorem Alike.exists_right {n'? : Option Node} (h : Alike (some n) n'?) :
    ∃ m, n'? = some m ∧ Alike (some n) (some m) := by
  rcases n'? with - | m
  · cases h
  · exact ⟨m, rfl, h⟩

theorem Thinned.alike (h : Thinned gone top top') (hkept : ¬ gone place) :
    Alike (top.at? place) (top'.at? place) :=
  alike_of_shell (h.kept place hkept)

theorem thinned_refl (top : Node) : Thinned (fun _ => False) top top :=
  ⟨fun _ _ => False.elim, fun _ => False.elim, fun _ _ => rfl⟩

theorem Thinned.not_gone (h : Thinned gone top top') {n : Node} (hthere : top'.at? place = some n) :
    ¬ gone place := by
  intro hgone
  rw [h.lacks place hgone] at hthere
  cases hthere

/-- The files and links of the second tree are those of the first that are not gone. -/
theorem Thinned.at?_iff (h : Thinned gone top top') (hn : ∀ entries, n ≠ .directory entries) :
    top'.at? place = some n ↔ top.at? place = some n ∧ ¬ gone place := by
  constructor
  · intro hthere
    have hkept := h.not_gone hthere
    have halike := h.alike hkept
    rw [hthere] at halike
    obtain ⟨m, hm, halike⟩ := halike.exists_left
    cases halike with
    | file content => exact ⟨hm, hkept⟩
    | link target => exact ⟨hm, hkept⟩
    | directory _ entries => exact absurd rfl (hn entries)
  · rintro ⟨hthere, hkept⟩
    have halike := h.alike hkept
    rw [hthere] at halike
    obtain ⟨m, hm, halike⟩ := halike.exists_right
    cases halike with
    | file content => exact hm
    | link target => exact hm
    | directory entries => exact absurd rfl (hn entries)

/-- Taking out what is no directory leaves all other places as they are. -/
theorem thinned_prune {gone : List String → Bool} (htop : ∃ entries, top = .directory entries)
    (hleaf : ∀ place entries, gone place = true → top.at? place ≠ some (.directory entries)) :
    Thinned (gone · = true) top (top.prune gone []) where
  leaf := hleaf
  lacks place hgone := by
    refine at?_prune_gone ?_ (List.prefix_refl place) hgone
    rintro rfl
    obtain ⟨entries, rfl⟩ := htop
    exact hleaf [] entries hgone at?_nil
  kept place hkept := by
    by_cases hclear : ∀ front, front ≠ [] → front <+: place → gone ([] ++ front) = false
    · rw [at?_prune_kept hclear, Option.map_map]
      cases top.at? place with
      | none => rfl
      | some n => exact congrArg some shell_prune
    · -- then there was nothing: what is gone is no directory
      simp only [not_forall, Bool.not_eq_false] at hclear
      obtain ⟨front, hne, hfront, hgone⟩ := hclear
      rw [at?_prune_gone hne hfront hgone]
      obtain ⟨more, rfl⟩ := hfront
      have hmore : more ≠ [] := by
        rintro rfl
        exact hkept (by simpa using hgone)
      obtain ⟨name, more, rfl⟩ := List.exists_cons_of_ne_nil hmore
      cases hthere : top.at? (front ++ name :: more) with
      | none => rfl
      | some n =>
        rw [at?_append] at hthere
        obtain ⟨m, hm, hrest⟩ := Option.bind_eq_some_iff.mp hthere
        obtain ⟨entries, rfl⟩ := eq_directory_of_at? hrest
        exact absurd hm (hleaf front entries hgone)

end Thinning

end Node

/-! ## Walks -/

section Walks

variable {gone : List String → Prop} {top top' : Node} {follow : Bool} {k n : Nat}
  {place names names' dirs goal : List String} {m : Node} {name target : String}

/-- Where the target of a link is walked from. -/
def linkStart (target : String) (place : List String) : List String :=
  if target.startsWith "/" then [] else place

/-- A walk by names from a place finds a node at its goal. -/
inductive Finds (top : Node) (follow : Bool) : Nat → List String → List String → List String → Node → Prop
  | here {n : Nat} {place : List String} {m : Node} (h : top.at? place = some m) :
      Finds top follow n place [] place m
  | idle {n : Nat} {place rest goal : List String} {m : Node} {name : String} (hname : IsIdle name)
      (h : Finds top follow n place rest goal m) : Finds top follow n place (name :: rest) goal m
  | up {n : Nat} {place rest goal : List String} {m : Node} (h : Finds top follow n place.dropLast rest goal m) :
      Finds top follow n place (".." :: rest) goal m
  | down {n : Nat} {place rest goal : List String} {m : Node} {name : String} {entries : List (String × Node)}
      (hname : Ordinary name) (hentry : top.at? (place ++ [name]) = some (.directory entries))
      (h : Finds top follow n (place ++ [name]) rest goal m) : Finds top follow n place (name :: rest) goal m
  | file {n : Nat} {place : List String} {name : String} {content : Content} (hname : Ordinary name)
      (hentry : top.at? (place ++ [name]) = some (.file content)) :
      Finds top follow n place [name] (place ++ [name]) (.file content)
  | link {n : Nat} {place : List String} {name target : String} (hname : Ordinary name)
      (hentry : top.at? (place ++ [name]) = some (.link target)) (hends : follow = false) :
      Finds top follow n place [name] (place ++ [name]) (.link target)
  | jump {n : Nat} {place rest goal : List String} {m : Node} {name target : String} (hname : Ordinary name)
      (hentry : top.at? (place ++ [name]) = some (.link target)) (hgoes : rest ≠ [] ∨ follow = true)
      (h : Finds top follow n (linkStart target place) (target.splitOn "/" ++ rest) goal m) :
      Finds top follow (n + 1) place (name :: rest) goal m

theorem goes_iff {rest : List String} : (rest.isEmpty && !follow) = false ↔ rest ≠ [] ∨ follow = true := by
  cases rest <;> simp

theorem finds_of_walk (h : walkLinks top follow n place names = .ok (.present goal m)) :
    Finds top follow n place names goal m := by
  -- links count down, and the names count down between them
  induction n using Nat.strongRecOn generalizing place names with
  | _ n ihlinks =>
    induction names generalizing place with
    | nil =>
      rw [walkLinks_eq, walk] at h
      split at h
      · next hthere =>
        cases h
        exact .here hthere
      · cases h
    | cons name rest ih =>
      rw [walkLinks_eq] at h ih
      rcases name_cases name with hidle | rfl | hname | ⟨hidle, hup, hlong⟩
      · rw [walk_idle hidle] at h
        exact .idle hidle (ih h)
      · rw [walk_up] at h
        exact .up (ih h)
      · rw [walk_ordinary hname] at h
        split at h
        · next hentry => exact .down hname hentry (ih h)
        · next hentry =>
          split at h
          · next hend =>
            cases h
            obtain rfl := List.isEmpty_iff.mp hend
            exact .file hname hentry
          · cases h
        · next hentry =>
          split at h
          · next hend =>
            cases h
            obtain ⟨hend, hends⟩ := Bool.and_eq_true_iff.mp hend
            obtain rfl := List.isEmpty_iff.mp hend
            exact .link hname hentry (by simpa using hends)
          · next hend =>
            cases n with
            | zero => cases h
            | succ n =>
              exact .jump hname hentry (goes_iff.mp (by simpa using hend)) (ihlinks n (Nat.lt_succ_self n) h)
        · split at h <;> cases h
      · rw [walk_long hidle hup hlong] at h
        cases h

theorem Finds.walk (h : Finds top follow n place names goal m) :
    walkLinks top follow n place names = .ok (.present goal m) := by
  induction h with
  | here h => rw [walkLinks_eq, Files.walk, h]
  | idle hname _ ih =>
    rw [walkLinks_eq] at ih ⊢
    rw [walk_idle hname, ih]
  | up _ ih =>
    rw [walkLinks_eq] at ih ⊢
    rw [walk_up, ih]
  | down hname hentry _ ih =>
    rw [walkLinks_eq] at ih ⊢
    rw [walk_ordinary hname, hentry]
    exact ih
  | file hname hentry => rw [walkLinks_eq, walk_ordinary hname, hentry]; rfl
  | link hname hentry hends => rw [walkLinks_eq, walk_ordinary hname, hentry, hends]; rfl
  | jump hname hentry hgoes _ ih =>
    rw [walkLinks_eq, walk_ordinary hname, hentry]
    simp only [goes_iff.mpr hgoes, Bool.false_eq_true, if_false]
    exact ih

namespace Finds

/-- What is found with so many links to be followed is found with more. -/
theorem mono (h : Finds top follow k place names goal m) (hle : k ≤ n) :
    Finds top follow n place names goal m := by
  induction h generalizing n with
  | here h => exact .here h
  | idle hname _ ih => exact .idle hname (ih hle)
  | up _ ih => exact .up (ih hle)
  | down hname hentry _ ih => exact .down hname hentry (ih hle)
  | file hname hentry => exact .file hname hentry
  | link hname hentry hends => exact .link hname hentry hends
  | jump hname hentry hgoes _ ih =>
    obtain ⟨n, rfl⟩ : ∃ n', n = n' + 1 := ⟨n - 1, by omega⟩
    exact .jump hname hentry hgoes (ih (by omega))

/-- What is found stands at the goal. -/
theorem at?_goal (h : Finds top follow n place names goal m) : top.at? goal = some m := by
  induction h with
  | here h => exact h
  | idle _ _ ih => exact ih
  | up _ ih => exact ih
  | down _ _ _ ih => exact ih
  | file _ hentry => exact hentry
  | link _ hentry _ => exact hentry
  | jump _ _ _ _ ih => exact ih

theorem at?_linkStart (hplace : ∃ entries, top.at? place = some (.directory entries)) :
    ∃ entries, top.at? (linkStart target place) = some (.directory entries) := by
  unfold linkStart
  split
  · obtain ⟨entries, hentries⟩ := hplace
    exact Leads.at?_top hentries
  · exact hplace

/-- The names before the last one of a walk that finds something lead to a directory. -/
theorem leads_before (h : Finds top true n place (names ++ names') goal m) (hmore : names' ≠ [])
    (hplace : ∃ entries, top.at? place = some (.directory entries)) :
    ∃ mid, Leads top n place names mid := by
  generalize hall : names ++ names' = all at h
  induction h generalizing names with
  | here h => exact absurd (List.append_eq_nil_iff.mp hall).2 hmore
  | idle hname _ ih =>
    obtain - | ⟨name, names⟩ := names
    · exact ⟨_, .here hplace⟩
    · obtain ⟨rfl, hrest⟩ := List.cons.inj hall
      obtain ⟨mid, hmid⟩ := ih hplace hrest
      exact ⟨mid, .idle hname hmid⟩
  | up _ ih =>
    obtain - | ⟨name, names⟩ := names
    · exact ⟨_, .here hplace⟩
    · obtain ⟨rfl, hrest⟩ := List.cons.inj hall
      obtain ⟨entries, hentries⟩ := hplace
      obtain ⟨mid, hmid⟩ := ih (Leads.at?_dropLast hentries) hrest
      exact ⟨mid, .up hmid⟩
  | down hname hentry _ ih =>
    obtain - | ⟨name, names⟩ := names
    · exact ⟨_, .here hplace⟩
    · obtain ⟨rfl, hrest⟩ := List.cons.inj hall
      obtain ⟨mid, hmid⟩ := ih ⟨_, hentry⟩ hrest
      exact ⟨mid, .down hname ⟨_, hentry⟩ hmid⟩
  | file _ _ =>
    obtain - | ⟨name, names⟩ := names
    · exact ⟨_, .here hplace⟩
    · exact absurd (List.append_eq_nil_iff.mp (List.cons.inj hall).2).2 hmore
  | link _ _ hends => cases hends
  | jump hname hentry _ _ ih =>
    obtain - | ⟨name, names⟩ := names
    · exact ⟨_, .here hplace⟩
    · obtain ⟨rfl, hrest⟩ := List.cons.inj hall
      obtain ⟨mid, hmid⟩ := ih (at?_linkStart hplace) ((List.append_assoc _ names names').trans (congrArg _ hrest))
      exact ⟨mid, .jump hname hentry hmid⟩

/-- What is found without some files is found with them. -/
theorem of_thinned (hthinned : Node.Thinned gone top top') (h : Finds top' follow n place names goal m) :
    ∃ m', Finds top follow n place names goal m' ∧ Node.Alike (some m') (some m) := by
  have hold {place : List String} {m : Node} (hthere : top'.at? place = some m) :
      ∃ m', top.at? place = some m' ∧ Node.Alike (some m') (some m) := by
    have halike := hthinned.alike (hthinned.not_gone hthere)
    rw [hthere] at halike
    exact halike.exists_left
  induction h with
  | here h =>
    obtain ⟨m', hm', halike⟩ := hold h
    exact ⟨m', .here hm', halike⟩
  | idle hname _ ih =>
    obtain ⟨m', hm', halike⟩ := ih
    exact ⟨m', .idle hname hm', halike⟩
  | up _ ih =>
    obtain ⟨m', hm', halike⟩ := ih
    exact ⟨m', .up hm', halike⟩
  | down hname hentry _ ih =>
    obtain ⟨m', hm', halike⟩ := ih
    obtain ⟨_, hentry, hsame⟩ := hold hentry
    cases hsame
    exact ⟨m', .down hname hentry hm', halike⟩
  | file hname hentry =>
    obtain ⟨_, hentry, hsame⟩ := hold hentry
    cases hsame
    exact ⟨_, .file hname hentry, .file _⟩
  | link hname hentry hends =>
    obtain ⟨_, hentry, hsame⟩ := hold hentry
    cases hsame
    exact ⟨_, .link hname hentry hends, .link _⟩
  | jump hname hentry hgoes _ ih =>
    obtain ⟨m', hm', halike⟩ := ih
    obtain ⟨_, hentry, hsame⟩ := hold hentry
    cases hsame
    exact ⟨m', .jump hname hentry hgoes hm', halike⟩

/-- What is found with some files is found without them, if it is none of them and is not found by the target
of a link among them. -/
theorem thinned (hthinned : Node.Thinned gone top top') (hgoal : ¬ gone goal)
    (hlinks : ∀ place name target, gone (place ++ [name]) → top.at? (place ++ [name]) = some (.link target) →
      ∀ k < n, ∀ rest, ¬ Finds top true k (linkStart target place) (target.splitOn "/" ++ rest) goal m)
    (h : Finds top true n place names goal m) :
    ∃ m', Finds top' true n place names goal m' ∧ Node.Alike (some m) (some m') := by
  have hnew {place : List String} {m : Node} (hkept : ¬ gone place) (hthere : top.at? place = some m) :
      ∃ m', top'.at? place = some m' ∧ Node.Alike (some m) (some m') := by
    have halike := hthinned.alike hkept
    rw [hthere] at halike
    exact halike.exists_right
  induction h with
  | here h =>
    obtain ⟨m', hm', halike⟩ := hnew hgoal h
    exact ⟨m', .here hm', halike⟩
  | idle hname _ ih =>
    obtain ⟨m', hm', halike⟩ := ih hgoal hlinks
    exact ⟨m', .idle hname hm', halike⟩
  | up _ ih =>
    obtain ⟨m', hm', halike⟩ := ih hgoal hlinks
    exact ⟨m', .up hm', halike⟩
  | down hname hentry _ ih =>
    obtain ⟨m', hm', halike⟩ := ih hgoal hlinks
    obtain ⟨_, hentry, hsame⟩ := hnew (fun hgone => hthinned.leaf _ _ hgone hentry) hentry
    cases hsame
    exact ⟨m', .down hname hentry hm', halike⟩
  | file hname hentry =>
    obtain ⟨_, hentry, hsame⟩ := hnew hgoal hentry
    cases hsame
    exact ⟨_, .file hname hentry, .file _⟩
  | link _ _ hends => cases hends
  | @jump n place rest goal m name target hname hentry hgoes h ih =>
    have hkept : ¬ gone (place ++ [name]) := fun hgone =>
      hlinks place name target hgone hentry n (Nat.lt_succ_self n) rest h
    obtain ⟨m', hm', halike⟩ := ih hgoal fun place name target hgone hlink k hk =>
      hlinks place name target hgone hlink k (by omega)
    obtain ⟨_, hentry, hsame⟩ := hnew hkept hentry
    cases hsame
    exact ⟨m', .jump hname hentry hgoes hm', halike⟩

end Finds

/-- Directories on the way down take no links. -/
theorem walk_descend (hdirs : ∀ dir ∈ dirs, Ordinary dir)
    (hthere : ∃ entries, top.at? (place ++ dirs) = some (.directory entries)) :
    walkLinks top follow n place (dirs ++ names) = walkLinks top follow n (place ++ dirs) names := by
  induction dirs generalizing place with
  | nil => rw [List.nil_append, List.append_nil]
  | cons dir dirs ih =>
    obtain ⟨hdir, hdirs⟩ := List.forall_mem_cons.mp hdirs
    obtain ⟨entries, hthere⟩ := hthere
    have hassoc : place ++ dir :: dirs = place ++ [dir] ++ dirs := by simp
    have hstep : ∃ inner, top.at? (place ++ [dir]) = some (.directory inner) := by
      rw [hassoc, Node.at?_append] at hthere
      obtain ⟨child, hchild, hrest⟩ := Option.bind_eq_some_iff.mp hthere
      cases dirs with
      | nil =>
        rw [Node.at?_nil] at hrest
        exact ⟨entries, hchild.trans hrest⟩
      | cons next dirs =>
        obtain ⟨inner, rfl⟩ := Node.eq_directory_of_at? hrest
        exact ⟨inner, hchild⟩
    obtain ⟨inner, hstep⟩ := hstep
    rw [walkLinks_eq, List.cons_append, walk_ordinary hdir, hstep, hassoc]
    rw [hassoc] at hthere
    exact walkLinks_eq ▸ ih hdirs ⟨entries, hthere⟩

/-- What comes after a walk to a directory is walked from there in both trees, with as many links left. -/
theorem exists_resumed (hthinned : Node.Thinned gone top top') (h : Leads top' n place names goal) :
    ∃ k, ∀ follow names', (names' ≠ [] ∨ follow = true) →
      walkLinks top follow n place (names ++ names') = walkLinks top follow k goal names' ∧
        walkLinks top' follow n place (names ++ names') = walkLinks top' follow k goal names' := by
  have heq (follow : Bool) (n : Nat) : walkLinks top follow n = walk top follow (behind top follow n) :=
    walkLinks_eq
  have heq' (follow : Bool) (n : Nat) : walkLinks top' follow n = walk top' follow (behind top' follow n) :=
    walkLinks_eq
  induction h with
  | @here n place _ => exact ⟨n, fun _ _ _ => ⟨rfl, rfl⟩⟩
  | idle hname _ ih =>
    obtain ⟨k, hk⟩ := ih
    refine ⟨k, fun follow names' hmore => ?_⟩
    have h := hk follow names' hmore
    rw [heq, heq'] at h ⊢
    rwa [List.cons_append, walk_idle hname, walk_idle hname]
  | up _ ih =>
    obtain ⟨k, hk⟩ := ih
    refine ⟨k, fun follow names' hmore => ?_⟩
    have h := hk follow names' hmore
    rw [heq, heq'] at h ⊢
    rwa [List.cons_append, walk_up, walk_up]
  | down hname hentry _ ih =>
    obtain ⟨k, hk⟩ := ih
    obtain ⟨entries, hentry⟩ := hentry
    refine ⟨k, fun follow names' hmore => ?_⟩
    have h := hk follow names' hmore
    have halike := hthinned.alike (hthinned.not_gone hentry)
    rw [hentry] at halike
    rw [heq, heq'] at h ⊢
    rw [List.cons_append, walk_ordinary hname, walk_ordinary hname, hentry]
    generalize top.at? _ = old at halike ⊢
    cases halike
    exact h
  | @jump n place rest goal name target hname hentry _ ih =>
    obtain ⟨k, hk⟩ := ih
    refine ⟨k, fun follow names' hmore => ?_⟩
    have h := hk follow names' hmore
    have halike := hthinned.alike (hthinned.not_gone hentry)
    rw [hentry] at halike
    have hgoes : ((rest ++ names').isEmpty && !follow) = false :=
      goes_iff.mpr (hmore.imp_left fun hmore => by simp [hmore])
    rw [heq, heq', List.cons_append, walk_ordinary hname, walk_ordinary hname, hentry]
    generalize top.at? _ = old at halike ⊢
    cases halike
    simp only [hgoes, Bool.false_eq_true, if_false, ← List.append_assoc]
    exact h

end Walks

end ClassAtlas.Files
