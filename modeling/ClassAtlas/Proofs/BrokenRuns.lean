import ClassAtlas.Proofs.LinklessTrees

/-! # Runs that break off

On a disk without links, whatever befalls its changes, making directories leaves all files as they are, and
writing a file changes no other one. So when a run breaks off, its files are accounted for by the paths that
it got to: those before the last one are whole, and no others were changed. -/

namespace ClassAtlas.Files

open Document (Makes run_bind_eq)
open Node (Grown nowhere grown_refl)

/-! ## Making directories -/

section Directories

variable {ε α β : Type}

/-- Work that makes nothing but directories, whether it ends well or not, and what its errors may be. -/
def OnlyDirectories (reports : ε → Prop) (work : ExceptT ε (StateM Disk) α) : Prop :=
  ∀ d : Disk, d.top.Linkless → Grown nowhere d.top (work.run.run d).2.top ∧
    ∀ e, (work.run.run d).1 = .error e → reports e

/-- What an error tells of a path: a null character is only reported if the path has one, and calls never
nest too deep. -/
structure Blames (path : String) (e : AccessError) : Prop where
  null : e = .nullCharacter → '\x00' ∈ path.toList
  nested : e ≠ .tooNested

theorem Blames.system {path place : String} {error : SystemError} : Blames path (.system error place) :=
  ⟨nofun, nofun⟩

theorem Blames.mono {path head : String} {e : AccessError} (h : Blames head e)
    (hsub : '\x00' ∈ head.toList → '\x00' ∈ path.toList) : Blames path e :=
  ⟨fun hnull => hsub (h.null hnull), h.nested⟩

theorem Blames.of_error {path : String} {e e' : AccessError} (h : Blames path e)
    (he : (.error e : Except AccessError α) = .error e') : Blames path e' := by
  cases he
  exact h

theorem blames_of_locate {top : Node} {follow : Bool} {path : String} {e : AccessError}
    (h : locate top follow path = .error e) : Blames path e := by
  obtain ⟨rfl, hnull⟩ | ⟨error, rfl⟩ := locate_error h
  · exact ⟨fun _ => hnull, nofun⟩
  · exact .system

namespace OnlyDirectories

variable {reports other : ε → Prop}

theorem pure (a : α) : OnlyDirectories reports (Pure.pure a : ExceptT ε (StateM Disk) α) :=
  fun d _ => ⟨grown_refl nowhere d.top, nofun⟩

theorem throw {e : ε} (he : reports e) :
    OnlyDirectories reports (MonadExcept.throw e : ExceptT ε (StateM Disk) α) := by
  refine fun d _ => ⟨grown_refl nowhere d.top, ?_⟩
  rintro _ ⟨⟩
  exact he

theorem get : OnlyDirectories reports (MonadState.get : ExceptT ε (StateM Disk) Disk) :=
  fun d _ => ⟨grown_refl nowhere d.top, nofun⟩

theorem bind {work : ExceptT ε (StateM Disk) α} {next : α → ExceptT ε (StateM Disk) β}
    (h : OnlyDirectories reports work) (hnext : ∀ a, OnlyDirectories reports (next a)) :
    OnlyDirectories reports (work >>= next) := by
  intro d hlinkless
  obtain ⟨hgrown, herror⟩ := h d hlinkless
  rw [run_bind_eq]
  rcases hrun : work.run.run d with ⟨e | a, t⟩
  all_goals rw [hrun] at hgrown herror
  · refine ⟨hgrown, ?_⟩
    rintro _ ⟨⟩
    exact herror e rfl
  · obtain ⟨hgrown', herror'⟩ := hnext a t (hgrown.linkless hlinkless)
    exact ⟨hgrown.trans hgrown', herror'⟩

theorem tryCatch {work : ExceptT ε (StateM Disk) α} {handler : ε → ExceptT ε (StateM Disk) α}
    (h : OnlyDirectories other work) (hhandler : ∀ e, other e → OnlyDirectories reports (handler e)) :
    OnlyDirectories reports (MonadExcept.tryCatch work handler) := by
  intro d hlinkless
  obtain ⟨hgrown, herror⟩ := h d hlinkless
  rw [run_tryCatch]
  rcases hrun : work.run.run d with ⟨e | a, t⟩
  all_goals rw [hrun] at hgrown herror
  · obtain ⟨hgrown', herror'⟩ := hhandler e (herror e rfl) t (hgrown.linkless hlinkless)
    exact ⟨hgrown.trans hgrown', herror'⟩
  · exact ⟨hgrown, nofun⟩

theorem makeDirectory (path : String) : OnlyDirectories (Blames path) (Disk.makeDirectory path) := by
  intro d hlinkless
  have hsame : Grown nowhere d.top d.tick.top := grown_refl nowhere d.top
  rw [run_makeDirectory]
  cases d.mishap d.changes with
  | some m => exact ⟨hsame, fun _ => Blames.system.of_error⟩
  | none =>
    cases hfound : admitted path (locate d.top false (lookedUp path)) with
    | error e =>
      have hblames : Blames path e := by
        obtain rfl | hlocate := admitted_error hfound
        · exact .system
        · exact (blames_of_locate hlocate).mono mem_lookedUp
      cases e with
      | system error place => exact ⟨hsame, fun _ => Blames.system.of_error⟩
      | nullCharacter => exact ⟨hsame, fun _ => hblames.of_error⟩
      | tooNested => exact absurd rfl hblames.nested
    | ok arrival =>
      cases arrival with
      | present place n => exact ⟨hsame, fun _ => Blames.system.of_error⟩
      | free place =>
        obtain ⟨-, -, hwalk⟩ := walk_of_locate (admitted_eq_ok.mp hfound).2
        obtain ⟨before, name, after, dir, -, -, hleads, -, rfl, hfree, -⟩ :=
          entry_of_walk (c := none) hlinkless hlinkless.at?_top hwalk
        obtain ⟨entries, hdir⟩ := hleads.exists_directory
        refine ⟨Node.grown_put hdir (.inl rfl) (fun old hold => ?_) ?_, nofun⟩
        · cases hfree.symm.trans hold
        · rintro ⟨content, ⟨⟩⟩

theorem ensureDirectory (path : String) : OnlyDirectories (Blames path) (Files.ensureDirectory path) := by
  refine (makeDirectory path).tryCatch fun e he => get.bind fun d => ?_
  split
  · exact pure ()
  · exact throw he

/-- There is a call for each name on the path. -/
theorem makeDirectoriesWithin {nesting : Nat} (path : String) (hnesting : path.length < nesting) :
    OnlyDirectories (Blames path) (Disk.makeDirectoriesWithin nesting path) := by
  induction nesting generalizing path with
  | zero => exact absurd hnesting (Nat.not_lt_zero _)
  | succ nesting ih =>
    rw [makeDirectoriesWithin_succ]
    refine get.bind fun d => ?_
    split
    · rename_i hcond
      have htail : (Path.parting path).2 ≠ "" := by
        simp only [Bool.and_eq_true, Bool.not_eq_true', String.isEmpty_eq_false_iff] at hcond
        exact hcond.1.2
      have hshorter := Path.length_parting_lt htail
      refine ((ih _ (by omega)).tryCatch fun e he => ?_).bind fun _ => ?_
      · split
        · exact pure ()
        · exact throw (he.mono Path.mem_parting)
      · split
        · exact pure ()
        · exact ensureDirectory path
    · exact ensureDirectory path

theorem makeDirectories (path : String) :
    OnlyDirectories (Blames path) (Disk.makeDirectories none path) :=
  makeDirectoriesWithin path (Nat.lt_succ_self _)

end OnlyDirectories

theorem fails_asOutput_nullCharacter {failure : AccessError → OutputError} {work : DiskWork α} {d d' : Disk}
    (h : Fails work d .nullCharacter d') : Fails (asOutput failure work) d .nullCharacter d' := by
  show ((Except.mapError _ <$> work.run : StateM Disk _)).run d = _
  rw [StateT.run_map, h]
  rfl

/-- What the errors of a root may be. -/
inductive RootError (root : String) : OutputError → Prop where
  | unusable {reason : String} : RootError root (.unusable root reason)
  | nullCharacter (mem : '\x00' ∈ root.toList) : RootError root .nullCharacter

variable {root : String}

theorem OnlyDirectories.asRoot {work : DiskWork α} (h : OnlyDirectories (Blames root) work) :
    OnlyDirectories (RootError root) (asOutput (fun e => .unusable root e.message) work) := by
  intro d hlinkless
  obtain ⟨hgrown, herror⟩ := h d hlinkless
  refine ⟨hgrown, fun e he => ?_⟩
  rcases hrun : work.run.run d with ⟨cause | _, t⟩
  · cases cause with
    | system error place =>
      rw [fails_asOutput hrun] at he
      cases he
      exact .unusable
    | nullCharacter =>
      rw [fails_asOutput_nullCharacter hrun] at he
      cases he
      exact .nullCharacter ((herror _ (congrArg Prod.fst hrun)).null rfl)
    | tooNested => exact absurd rfl (herror _ (congrArg Prod.fst hrun)).nested
  · rw [makes_asOutput hrun] at he
    cases he

theorem onlyDirectories_prepareRoot (root : String) :
    OnlyDirectories (RootError root) (prepareRoot none root) := by
  have hmakes : OnlyDirectories (RootError root) (asOutput (fun e => .unusable root e.message)
      (Disk.makeDirectories none root)) := (OnlyDirectories.makeDirectories root).asRoot
  rw [prepareRoot]
  refine OnlyDirectories.get.bind fun d => ?_
  dsimp only
  split
  · exact (OnlyDirectories.throw .unusable).bind fun _ => hmakes
  · exact hmakes

end Directories

/-! ## Writing a file -/

/-- A path leads to a file at the place that it spells out, and this is what the file holds. -/
structure HoldsFile (d : Disk) (path : String) (content : Content) : Prop where
  short : path.utf8ByteSize ≤ longestPath
  there : locate d.top true path = .ok (.present (spelled path) (.file content))

/-- The last name on a path is one that an entry can have. -/
def EndsInName (path : String) : Prop :=
  ∃ before name, path.splitOn "/" = before ++ [name] ∧ Ordinary name

section Writing

variable {d d' : Disk} {path text : String} {content : Content} {touched : List String → Prop}

theorem HoldsFile.node?_eq (h : HoldsFile d path content) : d.node? path = some (.file content) :=
  node?_eq_some.mpr ⟨h.short, _, h.there⟩

theorem HoldsFile.enters (h : HoldsFile d path content) (hlinkless : d.top.Linkless) :
    ∃ dir name, Enters d.top path dir name ∧ spelled path = dir ++ [name] ∧
      d.top.at? (spelled path) = some (.file content) :=
  enters_of_locate (c := some content) hlinkless h.there nofun

theorem HoldsFile.endsInName (h : HoldsFile d path content) (hlinkless : d.top.Linkless) :
    EndsInName path := by
  obtain ⟨dir, name, henters, -, -⟩ := h.enters hlinkless
  obtain ⟨before, hpieces, -⟩ := henters.pieces
  exact ⟨before, name, hpieces, henters.ordinary⟩

/-- A file is still found where it was, and holds the same if its place was not touched. -/
theorem HoldsFile.grown (h : HoldsFile d path content) (hlinkless : d.top.Linkless)
    (hgrown : Grown touched d.top d'.top) :
    ∃ content', HoldsFile d' path content' ∧ (¬ touched (spelled path) → content' = content) := by
  obtain ⟨dir, name, henters, hspelled, hfile⟩ := h.enters hlinkless
  obtain ⟨content', hfile'⟩ := hgrown.file _ _ hfile
  refine ⟨content', ⟨h.short, ?_⟩, fun hplace => ?_⟩
  · rw [hspelled]
    exact (henters.grown hlinkless hgrown).locate_eq (c := some content') (hspelled ▸ hfile')
  · have hsame := hgrown.content _ hplace
    rw [Node.contentAt?_eq_some.mpr hfile, Node.contentAt?_eq_some.mpr hfile'] at hsame
    exact Option.some.inj hsame

/-- How writing a text to a path may end. -/
inductive Effect (d : Disk) (path text : String) : Except AccessError Unit → Disk → Prop where
  /-- It fails before it gets to a file. -/
  | missed {e : AccessError} {d' : Disk} (grown : Grown nowhere d.top d'.top) (blames : Blames path e) :
      Effect d path text (.error e) d'
  /-- It gets to the file, and breaks off there. -/
  | torn {e : AccessError} {d' : Disk} {written : String} (grown : Grown (· = spelled path) d.top d'.top)
      (holds : HoldsFile d' path (.text written)) (blames : Blames path e) : Effect d path text (.error e) d'
  /-- All of the text is there. -/
  | done {d' : Disk} (grown : Grown (· = spelled path) d.top d'.top) (holds : HoldsFile d' path (.text text)) :
      Effect d path text (.ok ()) d'

/-- Setting an entry to a text touches nothing but that entry, and the text is found there. -/
theorem set_entry {dir : List String} {name : String} (hlinkless : d.top.Linkless)
    (hshort : path.utf8ByteSize ≤ longestPath) (henters : Enters d.top path dir name)
    (hold : ∀ old, d.top.at? (dir ++ [name]) = some old → ∃ content, old = .file content) (written : String) :
    Grown (· = spelled path) d.top (d.tick.set (dir ++ [name]) (.file (.text written))).top ∧
      HoldsFile (d.tick.set (dir ++ [name]) (.file (.text written))) path (.text written) := by
  obtain ⟨entries, hdir⟩ := henters.exists_directory
  have hspelled := henters.eq_spelled hlinkless
  have hgrown : Grown (· = spelled path) d.top (d.tick.set (dir ++ [name]) (.file (.text written))).top :=
    Node.grown_put hdir (.inr ⟨_, rfl⟩) (fun old h => ⟨hold old h, _, rfl⟩) fun _ => hspelled
  refine ⟨hgrown, hshort, ?_⟩
  rw [← hspelled]
  refine (henters.grown hlinkless hgrown).locate_eq (c := some (.text written)) ?_
  have hput : (d.tick.set (dir ++ [name]) (.file (.text written))).top.at? (dir ++ [name] ++ []) =
      (Node.file (.text written)).at? [] := Node.at?_put_entry hdir
  rwa [List.append_nil, Node.at?_nil] at hput

theorem effect_putText {dir : List String} {name : String} (hlinkless : d.top.Linkless)
    (hshort : path.utf8ByteSize ≤ longestPath) (henters : Enters d.top path dir name)
    (hold : ∀ old, d.top.at? (dir ++ [name]) = some old → ∃ content, old = .file content)
    (mishap? : Option Mishap) : Effect d path text
      ((putText path text (dir ++ [name]) mishap?).run.run d.tick).1
      ((putText path text (dir ++ [name]) mishap?).run.run d.tick).2 := by
  have hset := set_entry hlinkless hshort henters hold
  cases mishap? with
  | none => exact .done (hset text).1 (hset text).2
  | some m =>
    obtain ⟨error, reached⟩ := m
    cases reached with
    | none => exact .missed (grown_refl nowhere d.top) .system
    | some n => exact .torn (hset _).1 (hset _).2 .system

/-- Writing touches the file at the path, or none. -/
theorem effect_write (hlinkless : d.top.Linkless) (path text : String) : Effect d path text
    ((Disk.write path text).run.run d).1 ((Disk.write path text).run.run d).2 := by
  have hsame : Grown nowhere d.top d.tick.top := grown_refl nowhere d.top
  rw [run_write]
  cases hfound : admitted path (locate d.top true path) with
  | error e =>
    refine .missed hsame ?_
    obtain rfl | hlocate := admitted_error hfound
    · exact .system
    · exact blames_of_locate hlocate
  | ok arrival =>
    obtain ⟨hshort, hlocate⟩ := admitted_eq_ok.mp hfound
    cases arrival with
    | present place n =>
      cases n with
      | file content =>
        obtain ⟨dir, name, henters, rfl, hfile⟩ :=
          enters_of_locate (c := some content) hlinkless hlocate nofun
        refine effect_putText hlinkless hshort henters (fun old hold => ?_) _
        exact ⟨content, Option.some.inj (hold.symm.trans hfile)⟩
      | directory entries => exact .missed hsame .system
      | link target => exact .missed hsame .system
    | free place =>
      rw [writeAt]
      cases hend : path.endsWith "/" with
      | true => exact .missed hsame .system
      | false =>
        obtain ⟨dir, name, henters, rfl, hfree⟩ :=
          enters_of_locate (c := none) hlinkless hlocate fun _ => hend
        refine effect_putText hlinkless hshort henters (fun old hold => ?_) _
        cases hfree.symm.trans hold

/-- Directories that are made before make no difference. -/
theorem Effect.after {t : Disk} (hgrown : Grown nowhere d.top t.top) {result : Except AccessError Unit}
    (h : Effect t path text result d') : Effect d path text result d' := by
  cases h with
  | missed hmissed hblames => exact .missed (hgrown.trans hmissed) hblames
  | torn htorn holds hblames => exact .torn ((hgrown.mono nofun).trans htorn) holds hblames
  | done hdone holds => exact .done ((hgrown.mono nofun).trans hdone) holds

theorem effect_writeFile (hlinkless : d.top.Linkless) (path text : String) : Effect d path text
    ((writeFile none path text).run.run d).1 ((writeFile none path text).run.run d).2 := by
  obtain ⟨hgrown, herror⟩ := OnlyDirectories.makeDirectories (Path.directory path) d hlinkless
  rw [writeFile, run_bind_eq]
  rcases hrun : (Disk.makeDirectories none (Path.directory path)).run.run d with ⟨e | _, t⟩
  all_goals rw [hrun] at hgrown herror
  · exact .missed hgrown ((herror e rfl).mono Path.mem_directory)
  · exact (effect_write (hgrown.linkless hlinkless) path text).after hgrown

end Writing

/-! ## Writing files in order -/

/-- The text of the last of some files with this path. -/
def lastText (files : List (String × String)) (path : String) : Option String :=
  files.reverse.lookup path

/-- No two paths that end in a name spell out the same place. -/
def Apart (files : List (String × String)) : Prop :=
  ∀ file ∈ files, ∀ other ∈ files, EndsInName file.1 → EndsInName other.1 →
    spelled file.1 = spelled other.1 → file.1 = other.1

/-- One of the paths leads to a file at this place. -/
def LeadTo (d : Disk) (files : List (String × String)) (place : List String) : Prop :=
  ∃ file ∈ files, ∃ content, locate d.top true file.1 = .ok (.present place (.file content))

/-- All files are whole, and no others were changed since. -/
structure Progress (start : Disk) (done : List (String × String)) (d : Disk) : Prop where
  grown : Grown (LeadTo d done) start.top d.top
  whole : ∀ file ∈ done, ∃ text, lastText done file.1 = some text ∧ HoldsFile d file.1 (.text text)

/-- All files before one with another path are whole, and no others were changed since but perhaps that
one. -/
structure Broken (start : Disk) (done : List (String × String)) (file : String × String) (d : Disk) :
    Prop where
  grown : Grown (LeadTo d (done ++ [file])) start.top d.top
  whole : ∀ old ∈ done, old.1 ≠ file.1 → ∃ text, lastText done old.1 = some text ∧
    HoldsFile d old.1 (.text text)

section Runs

variable {start d d' : Disk} {done rest files : List (String × String)} {file : String × String}
  {result : Except AccessError Unit} {path root : String}

theorem lastText_concat : lastText (done ++ [file]) path =
    if path = file.1 then some file.2 else lastText done path := by
  rw [lastText, List.reverse_append, List.reverse_singleton, List.singleton_append, List.lookup_cons]
  by_cases h : path = file.1
  · rw [if_pos h, beq_iff_eq.mpr h]
  · rw [if_neg h, beq_eq_false_iff_ne.mpr h, lastText]

/-- However writing ends, at most the file at the path is touched. -/
theorem Effect.grown {text : String} (h : Effect d path text result d') :
    Grown (fun place => place = spelled path ∧ ∃ content, HoldsFile d' path content) d.top d'.top := by
  cases h with
  | missed hgrown => exact hgrown.mono nofun
  | torn hgrown holds => exact hgrown.mono fun place hplace => ⟨hplace, _, holds⟩
  | done hgrown holds => exact hgrown.mono fun place hplace => ⟨hplace, _, holds⟩

theorem Effect.blames {text : String} {e : AccessError} (h : Effect d path text (.error e) d') :
    Blames path e := by
  cases h with
  | missed _ hblames => exact hblames
  | torn _ _ hblames => exact hblames

theorem LeadTo.grown {touched : List String → Prop} {place : List String} (h : LeadTo d done place)
    (hlinkless : d.top.Linkless) (hgrown : Grown touched d.top d'.top) :
    LeadTo d' (done ++ [file]) place := by
  obtain ⟨old, hold, content, hlocate⟩ := h
  obtain ⟨dir, name, henters, rfl, hfile⟩ := enters_of_locate (c := some content) hlinkless hlocate nofun
  obtain ⟨content', hfile'⟩ := hgrown.file _ _ hfile
  exact ⟨old, List.mem_append_left _ hold, content',
    (henters.grown hlinkless hgrown).locate_eq (c := some content') hfile'⟩

/-- A run that goes on with a file may break off there. -/
theorem Progress.broken (h : Progress start done d) (hlinkless : start.top.Linkless)
    (hapart : Apart (done ++ [file])) (heffect : Effect d file.1 file.2 result d') :
    Broken start done file d' := by
  have hlinkless' := h.grown.linkless hlinkless
  have hgrown := heffect.grown
  constructor
  · refine (h.grown.mono fun place hplace => hplace.grown hlinkless' hgrown).trans (hgrown.mono ?_)
    rintro place ⟨rfl, content, holds⟩
    exact ⟨file, by simp, content, holds.there⟩
  · intro old hold hne
    obtain ⟨text, hlast, holds⟩ := h.whole old hold
    obtain ⟨content, holds', hsame⟩ := holds.grown hlinkless' hgrown
    have huntouched : ¬ (spelled old.1 = spelled file.1 ∧ ∃ content, HoldsFile d' file.1 content) := by
      rintro ⟨hspelled, _, hfile⟩
      exact hne (hapart old (List.mem_append_left _ hold) file (by simp) (holds.endsInName hlinkless')
        (hfile.endsInName (hgrown.linkless hlinkless')) hspelled)
    rw [hsame huntouched] at holds'
    exact ⟨text, hlast, holds'⟩

/-- A run that writes a file goes on. -/
theorem Progress.step (h : Progress start done d) (hlinkless : start.top.Linkless)
    (hapart : Apart (done ++ [file])) (heffect : Effect d file.1 file.2 (.ok ()) d') :
    Progress start (done ++ [file]) d' := by
  have hbroken := h.broken hlinkless hapart heffect
  refine ⟨hbroken.grown, fun old hold => ?_⟩
  rw [lastText_concat]
  by_cases hsame : old.1 = file.1
  · rw [if_pos hsame, hsame]
    cases heffect with
    | done _ holds => exact ⟨file.2, rfl, holds⟩
  · rw [if_neg hsame]
    rcases List.mem_append.mp hold with hold | hold
    · exact hbroken.whole old hold hsame
    · rw [List.mem_singleton.mp hold] at hsame
      exact absurd rfl hsame

/-- How a run that writes files may end. -/
inductive RunEnd (start : Disk) (root : String) (files : List (String × String)) :
    Except OutputError Nat → Disk → Prop where
  | unusable {reason : String} {d : Disk} (rootless : start.isDirectory root = false)
      (grown : Grown nowhere start.top d.top) :
      RunEnd start root files (.error (.unusable root reason)) d
  | brokenOff {done rest : List (String × String)} {file : String × String} {reason : String} {d : Disk}
      (split : files = done ++ file :: rest) (broken : Broken start done file d) :
      RunEnd start root files (.error (.brokenOff done.length file.1 reason)) d
  | nullCharacter {d : Disk} (mem : '\x00' ∈ root.toList ∨ ∃ file ∈ files, '\x00' ∈ file.1.toList) :
      RunEnd start root files (.error .nullCharacter) d
  | finished {d : Disk} (progress : Progress start files d) :
      RunEnd start root files (.ok files.length) d

theorem runEnd_writeFiles (h : Progress start done d) (hlinkless : start.top.Linkless)
    (hapart : Apart (done ++ rest)) : RunEnd start root (done ++ rest)
      ((writeFiles none done.length rest).run.run d).1 ((writeFiles none done.length rest).run.run d).2 := by
  induction rest generalizing done d with
  | nil =>
    rw [List.append_nil]
    exact .finished h
  | cons file rest ih =>
    obtain ⟨path, text⟩ := file
    have hapart' : Apart (done ++ [(path, text)]) := by
      have hsub : done ++ [(path, text)] ⊆ done ++ (path, text) :: rest := by simp
      exact fun file hfile other hother => hapart file (hsub hfile) other (hsub hother)
    have heffect := effect_writeFile (h.grown.linkless hlinkless) path text
    rw [writeFiles, run_bind_eq]
    rcases hrun : (writeFile none path text).run.run d with ⟨e | _, t⟩
    all_goals rw [hrun] at heffect
    · have hbroken := h.broken hlinkless hapart' heffect
      cases e with
      | system error place =>
        rw [fails_asOutput hrun]
        exact .brokenOff rfl hbroken
      | nullCharacter =>
        rw [fails_asOutput_nullCharacter hrun]
        exact .nullCharacter (.inr ⟨(path, text), by simp, heffect.blames.null rfl⟩)
      | tooNested => exact absurd rfl heffect.blames.nested
    · rw [makes_asOutput hrun]
      have hend := ih (h.step hlinkless hapart' heffect) (by rwa [← List.append_cons])
      rwa [List.length_append, List.length_singleton, ← List.append_cons] at hend

/-- A run on a disk without links is accounted for, whatever befalls its changes. -/
theorem runEnd_writeBelow (hlinkless : d.top.Linkless) (hapart : Apart files) (root : String) :
    RunEnd d root files ((writeBelow root files).run.run d).1 ((writeBelow root files).run.run d).2 := by
  obtain ⟨hgrown, herror⟩ := onlyDirectories_prepareRoot root d hlinkless
  rw [writeBelow, writeBelowWithin, run_bind_eq]
  rcases hrun : (prepareRoot none root).run.run d with ⟨e | _, t⟩
  all_goals rw [hrun] at hgrown herror
  · cases herror e rfl with
    | unusable =>
      refine .unusable (Bool.not_eq_true _ ▸ fun hdirectory => ?_) hgrown
      have hnesting : ∀ n ∈ (none : Option Nat), 0 < n := nofun
      cases hrun.symm.trans (makes_prepareRoot_there hnesting (hasDirectory_of_isDirectory hdirectory))
    | nullCharacter hmem => exact .nullCharacter (.inl hmem)
  · have hprogress : Progress d [] t := ⟨hgrown.mono nofun, nofun⟩
    exact runEnd_writeFiles hprogress hlinkless hapart

end Runs

end ClassAtlas.Files
