import ClassAtlas.Proofs.FileTrees
import ClassAtlas.Proofs.PathNames

/-! # Where walks lead

A walk to a directory takes one step for each name on its path, and a link puts more names in the place
of its own. Such walks can be cut and joined, empty names do not matter to them, and they go the same
way in a tree that has more in it. What comes after one is walked from the directory it led to. -/

namespace ClassAtlas.Files

open ClassAtlas.Path (IsIdle counts counts_eq_false_iff counts_eq_true isIdle_iff)

/-- A name that can be that of an entry. -/
structure Ordinary (name : String) : Prop where
  nonempty : name ≠ ""
  notHere : name ≠ "."
  notUp : name ≠ ".."
  short : name.utf8ByteSize ≤ longestName

theorem Ordinary.not_idle {name : String} (h : Ordinary name) : ¬ IsIdle name := fun hidle =>
  hidle.elim h.nonempty h.notHere

theorem Ordinary.counts {name : String} (h : Ordinary name) : counts name = true :=
  counts_eq_true h.not_idle

/-- The walk to a directory by names from a place, with so many links to be followed at most. -/
inductive Leads (top : Node) : Nat → List String → List String → List String → Prop
  | here {n : Nat} {place : List String}
      (h : ∃ entries, top.at? place = some (.directory entries)) : Leads top n place [] place
  | idle {n : Nat} {place rest goal : List String} {name : String} (hname : IsIdle name)
      (h : Leads top n place rest goal) : Leads top n place (name :: rest) goal
  | up {n : Nat} {place rest goal : List String} (h : Leads top n place.dropLast rest goal) :
      Leads top n place (".." :: rest) goal
  | down {n : Nat} {place rest goal : List String} {name : String} (hname : Ordinary name)
      (hentry : ∃ entries, top.at? (place ++ [name]) = some (.directory entries))
      (h : Leads top n (place ++ [name]) rest goal) : Leads top n place (name :: rest) goal
  | jump {n : Nat} {place rest goal : List String} {name target : String} (hname : Ordinary name)
      (hentry : top.at? (place ++ [name]) = some (.link target))
      (h : Leads top n (if target.startsWith "/" then [] else place) (target.splitOn "/" ++ rest) goal) :
      Leads top (n + 1) place (name :: rest) goal

/-! ## Steps of a walk -/

section Steps

variable {top : Node} {follow : Bool} {jump : List String → List String → Except SystemError Arrival}
  {n : Nat} {place rest goal names : List String} {name : String}

/-- How a walk with so many links goes on behind one. -/
def behind (top : Node) (follow : Bool) : Nat → List String → List String → Except SystemError Arrival
  | 0 => fun _ _ => .error .tooManyLinks
  | n + 1 => walkLinks top follow n

theorem walkLinks_eq : walkLinks top follow n = walk top follow (behind top follow n) := by
  cases n <;> rfl

theorem walk_idle (h : IsIdle name) :
    walk top follow jump place (name :: rest) = walk top follow jump place rest := by
  rw [walk, if_pos (isIdle_iff.mpr h)]

theorem walk_up :
    walk top follow jump place (".." :: rest) = walk top follow jump place.dropLast rest := by
  have hidle : ¬ IsIdle ".." := by
    rintro (h | h) <;> simp at h
  rw [walk, if_neg (mt isIdle_iff.mp hidle), if_pos (beq_self_eq_true "..")]

theorem walk_ordinary (h : Ordinary name) : walk top follow jump place (name :: rest) =
    match top.at? (place ++ [name]) with
    | some (.directory _) => walk top follow jump (place ++ [name]) rest
    | some (.file content) =>
      if rest.isEmpty then .ok (.present (place ++ [name]) (.file content)) else .error .notDirectory
    | some (.link target) =>
      if rest.isEmpty && !follow then .ok (.present (place ++ [name]) (.link target))
      else jump (if target.startsWith "/" then [] else place) (target.splitOn "/" ++ rest)
    | none => if rest.all String.isEmpty then .ok (.free (place ++ [name])) else .error .missing := by
  have hup : ¬ (name == "..") = true := by simpa using h.notUp
  rw [walk, if_neg (mt isIdle_iff.mp h.not_idle), if_neg hup]
  exact if_neg (Nat.not_lt.mpr h.short)

theorem walk_long (hidle : ¬ IsIdle name) (hup : name ≠ "..") (h : longestName < name.utf8ByteSize) :
    walk top follow jump place (name :: rest) = .error .nameTooLong := by
  have hup' : ¬ (name == "..") = true := by simpa using hup
  rw [walk, if_neg (mt isIdle_iff.mp hidle), if_neg hup', if_pos h]

/-- A name that is none of the others is ordinary, or too long. -/
theorem name_cases (name : String) :
    IsIdle name ∨ name = ".." ∨ Ordinary name ∨
      ¬ IsIdle name ∧ name ≠ ".." ∧ longestName < name.utf8ByteSize := by
  by_cases hidle : IsIdle name
  · exact .inl hidle
  by_cases hup : name = ".."
  · exact .inr (.inl hup)
  by_cases hlong : longestName < name.utf8ByteSize
  · exact .inr (.inr (.inr ⟨hidle, hup, hlong⟩))
  · obtain ⟨hempty, hhere⟩ := not_or.mp hidle
    exact .inr (.inr (.inl ⟨hempty, hhere, hup, Nat.not_lt.mp hlong⟩))

/-- A walk that ends at a directory takes such steps. -/
theorem leads_of_walk {entries : List (String × Node)}
    (h : walkLinks top true n place names = .ok (.present goal (.directory entries))) :
    Leads top n place names goal := by
  -- links count down, and the names count down between them
  induction n using Nat.strongRecOn generalizing place names with
  | _ n ihlinks =>
    induction names generalizing place with
    | nil =>
      rw [walkLinks_eq, walk] at h
      split at h
      · rename_i hthere
        cases h
        exact .here ⟨_, hthere⟩
      · cases h
    | cons name rest ih =>
      rw [walkLinks_eq] at h ih
      rcases name_cases name with hidle | rfl | hname | ⟨hidle, hup, hlong⟩
      · rw [walk_idle hidle] at h
        exact .idle hidle (ih h)
      · rw [walk_up] at h
        exact .up (ih h)
      · rw [walk_ordinary hname] at h
        split at h
        · rename_i hentry
          exact .down hname ⟨_, hentry⟩ (ih h)
        · split at h <;> cases h
        · rename_i hentry
          rw [Bool.not_true, Bool.and_false, if_neg Bool.false_ne_true] at h
          cases n with
          | zero => cases h
          | succ n => exact .jump hname hentry (ihlinks n (Nat.lt_succ_self n) h)
        · split at h <;> cases h
      · rw [walk_long hidle hup hlong] at h
        cases h

end Steps

/-! ## Laws of walks to directories -/

namespace Leads

variable {top top' : Node} {follow : Bool} {n : Nat} {place names names' mid goal : List String}

theorem exists_directory (h : Leads top n place names goal) :
    ∃ entries, top.at? goal = some (.directory entries) := by
  induction h with
  | here h => exact h
  | idle _ _ ih => exact ih
  | up _ ih => exact ih
  | down _ _ _ ih => exact ih
  | jump _ _ _ ih => exact ih

/-- More in the tree does not change the way. -/
theorem mono (hkeeps : Node.Keeps top top') (h : Leads top n place names goal) :
    Leads top' n place names goal := by
  induction h with
  | here h =>
    obtain ⟨entries, h⟩ := h
    exact .here (hkeeps.directory _ _ h)
  | idle hname _ ih => exact .idle hname ih
  | up _ ih => exact .up ih
  | down hname hentry _ ih =>
    obtain ⟨entries, hentry⟩ := hentry
    exact .down hname (hkeeps.directory _ _ hentry) ih
  | jump hname hentry _ ih => exact .jump hname (hkeeps.link _ _ hentry) ih

/-- What comes after a walk to a directory is walked from there. -/
theorem walk (h : Leads top n place names mid) (hmore : names' ≠ [] ∨ follow = true) :
    ∃ m, walkLinks top follow n place (names ++ names') = walkLinks top follow m mid names' := by
  induction h with
  | @here n place _ => exact ⟨n, rfl⟩
  | idle hname _ ih =>
    obtain ⟨m, hm⟩ := ih
    rw [walkLinks_eq] at hm
    exact ⟨m, by rw [walkLinks_eq, List.cons_append, walk_idle hname, hm]⟩
  | up _ ih =>
    obtain ⟨m, hm⟩ := ih
    rw [walkLinks_eq] at hm
    exact ⟨m, by rw [walkLinks_eq, List.cons_append, walk_up, hm]⟩
  | down hname hentry _ ih =>
    obtain ⟨m, hm⟩ := ih
    obtain ⟨entries, hentry⟩ := hentry
    rw [walkLinks_eq] at hm
    refine ⟨m, ?_⟩
    rw [walkLinks_eq, List.cons_append, walk_ordinary hname, hentry]
    exact hm
  | @jump n place rest goal name target hname hentry _ ih =>
    obtain ⟨m, hm⟩ := ih
    refine ⟨m, ?_⟩
    have hgoes : ((rest ++ names').isEmpty && !follow) = false := by
      rcases hmore with hmore | rfl
      · simp [hmore]
      · simp
    rw [walkLinks_eq, List.cons_append, walk_ordinary hname, hentry]
    simp only [hgoes, Bool.false_eq_true, if_false]
    rw [← List.append_assoc]
    exact hm

/-- A walk to a directory finds what stands there. -/
theorem walk_here (h : Leads top n place names goal) : walkLinks top true n place names =
    match top.at? goal with
    | some n => .ok (.present goal n)
    | none => .error .missing := by
  obtain ⟨m, hm⟩ : ∃ m, walkLinks top true n place (names ++ []) = walkLinks top true m goal [] :=
    h.walk (.inr rfl)
  rw [List.append_nil, walkLinks_eq (n := m), Files.walk] at hm
  exact hm

theorem append (h : Leads top n place names mid) (hrest : ∀ m, Leads top m mid names' goal) :
    Leads top n place (names ++ names') goal := by
  induction h with
  | here _ => exact hrest _
  | idle hname _ ih => exact .idle hname (ih hrest)
  | up _ ih => exact .up (ih hrest)
  | down hname hentry _ ih => exact .down hname hentry (ih hrest)
  | jump hname hentry _ ih =>
    refine .jump hname hentry ?_
    have hrest := ih hrest
    rwa [List.append_assoc] at hrest

/-- Ordinary names lead down to a directory that is there. -/
theorem descend {q : List String} {entries : List (String × Node)} (hq : ∀ name ∈ q, Ordinary name)
    (h : top.at? (place ++ q) = some (.directory entries)) : Leads top n place q (place ++ q) := by
  induction q generalizing place with
  | nil =>
    rw [List.append_nil] at h ⊢
    exact .here ⟨entries, h⟩
  | cons name q ih =>
    obtain ⟨hname, hq⟩ := List.forall_mem_cons.mp hq
    have hassoc : place ++ name :: q = place ++ [name] ++ q := by simp
    rw [hassoc] at h ⊢
    refine .down hname ?_ (ih hq h)
    rw [Node.at?_append] at h
    obtain ⟨child, hchild, hrest⟩ := Option.bind_eq_some_iff.mp h
    rw [hchild]
    cases q with
    | nil =>
      rw [Node.at?_nil] at hrest
      exact ⟨entries, hrest⟩
    | cons next q =>
      obtain ⟨siblings, rfl⟩ := Node.eq_directory_of_at? hrest
      exact ⟨siblings, rfl⟩

theorem at?_dropLast {entries : List (String × Node)} (h : top.at? place = some (.directory entries)) :
    ∃ entries', top.at? place.dropLast = some (.directory entries') := by
  rcases List.eq_nil_or_concat place with rfl | ⟨place, name, rfl⟩
  · exact ⟨entries, h⟩
  · rw [List.concat_eq_append] at h ⊢
    rw [Node.at?_append] at h
    obtain ⟨parent, hparent, hentry⟩ := Option.bind_eq_some_iff.mp h
    obtain ⟨siblings, rfl⟩ := Node.eq_directory_of_at? hentry
    exact ⟨siblings, by rw [List.dropLast_concat, hparent]⟩

/-- Where there is a directory, there is one at the top. -/
theorem at?_top {entries : List (String × Node)} (h : top.at? place = some (.directory entries)) :
    ∃ entries', top.at? [] = some (.directory entries') := by
  cases place with
  | nil => exact ⟨entries, h⟩
  | cons name place =>
    obtain ⟨entries', rfl⟩ := Node.eq_directory_of_at? h
    exact ⟨entries', Node.at?_nil⟩

/-- The way to a directory leads through directories. -/
theorem before (h : Leads top n place (names ++ names') goal)
    (hplace : ∃ entries, top.at? place = some (.directory entries)) :
    ∃ mid, Leads top n place names mid := by
  generalize hall : names ++ names' = all at h
  induction h generalizing names with
  | here _ =>
    obtain ⟨rfl, -⟩ := List.append_eq_nil_iff.mp hall
    exact ⟨_, .here hplace⟩
  | idle hname _ ih =>
    cases names with
    | nil => exact ⟨_, .here hplace⟩
    | cons name names =>
      cases hall
      obtain ⟨mid, hmid⟩ := ih hplace rfl
      exact ⟨mid, .idle hname hmid⟩
  | up _ ih =>
    cases names with
    | nil => exact ⟨_, .here hplace⟩
    | cons name names =>
      cases hall
      obtain ⟨entries, hentries⟩ := hplace
      obtain ⟨mid, hmid⟩ := ih (at?_dropLast hentries) rfl
      exact ⟨mid, .up hmid⟩
  | down hname hentry _ ih =>
    cases names with
    | nil => exact ⟨_, .here hplace⟩
    | cons name names =>
      cases hall
      obtain ⟨mid, hmid⟩ := ih hentry rfl
      exact ⟨mid, .down hname hentry hmid⟩
  | @jump n place rest goal name target hname hentry _ ih =>
    cases names with
    | nil => exact ⟨_, .here hplace⟩
    | cons name names =>
      cases hall
      have hstart : ∃ entries, top.at? (if target.startsWith "/" then [] else place) =
          some (.directory entries) := by
        split
        · obtain ⟨entries, hentries⟩ := hplace
          exact at?_top hentries
        · exact hplace
      obtain ⟨mid, hmid⟩ := ih hstart (List.append_assoc ..)
      exact ⟨mid, .jump hname hentry hmid⟩

/-- Names that stand for their own directory can be passed over. -/
theorem skip {idle : List String} (hidle : ∀ name ∈ idle, IsIdle name)
    (h : Leads top n place names goal) : Leads top n place (idle ++ names) goal := by
  induction idle with
  | nil => exact h
  | cons name idle ih =>
    obtain ⟨hname, hidle⟩ := List.forall_mem_cons.mp hidle
    exact .idle hname (ih hidle)

/-- A walk to a directory only depends on the names that count. -/
theorem congr_names (h : Leads top n place names goal)
    (heq : names'.filter counts = names.filter counts) : Leads top n place names' goal := by
  -- where the way takes a name that counts, the other names have the same one behind idle ones
  have hsplit {name : String} {rest names' : List String} (hname : counts name = true)
      (heq : names'.filter counts = (name :: rest).filter counts) :
      ∃ idle rest', names' = idle ++ name :: rest' ∧ (∀ name ∈ idle, IsIdle name) ∧
        rest'.filter counts = rest.filter counts := by
    rw [List.filter_cons_of_pos hname] at heq
    obtain ⟨idle, rest', rfl, hidle, -, hrest⟩ := List.filter_eq_cons_iff.mp heq
    exact ⟨idle, rest', rfl, fun name hmem =>
      counts_eq_false_iff.mp (Bool.eq_false_iff.mpr (hidle name hmem)), hrest⟩
  induction h generalizing names' with
  | here h =>
    have hidle : ∀ name ∈ names', IsIdle name := fun name hmem =>
      counts_eq_false_iff.mp (Bool.eq_false_iff.mpr (List.filter_eq_nil_iff.mp heq name hmem))
    exact List.append_nil names' ▸ Leads.skip hidle (.here h)
  | idle hname _ ih =>
    have hnot : ¬ counts _ = true := Bool.eq_false_iff.mp (counts_eq_false_iff.mpr hname)
    rw [List.filter_cons_of_neg hnot] at heq
    exact ih heq
  | up _ ih =>
    have hup : counts ".." = true := by decide
    obtain ⟨idle, rest', rfl, hidle, hrest⟩ := hsplit hup heq
    exact .skip hidle (.up (ih hrest))
  | down hname hentry _ ih =>
    obtain ⟨idle, rest', rfl, hidle, hrest⟩ := hsplit hname.counts heq
    exact .skip hidle (.down hname hentry (ih hrest))
  | jump hname hentry _ ih =>
    obtain ⟨idle, rest', rfl, hidle, hrest⟩ := hsplit hname.counts heq
    refine .skip hidle (.jump hname hentry (ih ?_))
    rw [List.filter_append, List.filter_append, hrest]

theorem splitOn_iff {path : String} :
    Leads top n place (path.splitOn "/") goal ↔ Leads top n place (Path.names path) goal := by
  have hnames : (Path.names path).filter counts = (path.splitOn "/").filter counts := by
    rw [Path.names_eq, List.filter_filter]
    simp
  exact ⟨fun h => h.congr_names hnames, fun h => h.congr_names hnames.symm⟩

/-- Where there is a way to a directory, the place of its last name is taken. -/
theorem not_free (h : Leads top n place names goal) {free : List String} :
    walkLinks top false n place names ≠ .ok (.free free) := by
  induction h with
  | here h =>
    obtain ⟨entries, h⟩ := h
    rw [walkLinks_eq, Files.walk, h]
    rintro ⟨⟩
  | idle hname _ ih =>
    rw [walkLinks_eq] at ih ⊢
    rwa [walk_idle hname]
  | up _ ih =>
    rw [walkLinks_eq] at ih ⊢
    rwa [walk_up]
  | down hname hentry _ ih =>
    obtain ⟨entries, hentry⟩ := hentry
    rw [walkLinks_eq] at ih ⊢
    rwa [walk_ordinary hname, hentry]
  | jump hname hentry _ ih =>
    rw [walkLinks_eq, walk_ordinary hname, hentry]
    dsimp only
    split
    · rintro ⟨⟩
    · exact ih

end Leads

end ClassAtlas.Files
