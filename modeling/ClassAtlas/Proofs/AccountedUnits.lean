import ClassAtlas.Proofs.BrokenRuns
import ClassAtlas.Proofs.ConfinedUnits

/-! # Units accounted for

When a run that writes the units of a diagram breaks off, the error says after how many classifiers and at
which path. On a disk without links that is enough to know what became of every file. The one thing to be
seen to is that two paths never lead to one file: without slashes in names and namespaces the place of a unit
tells its path, however the root is spelled. -/

namespace ClassAtlas.Path

/-! ## Parts without slashes -/

section Plain

variable {root path part : String} {parts : List String}

/-- Plain parts put themselves behind the names of a path, but for those that do not count. -/
theorem names_joinAll_plain (h : ∀ part ∈ parts, '/' ∉ part.toList) :
    names (joinAll root parts) = names root ++ parts.filter counts := by
  have hparts : parts.flatMap names = parts.filter counts := by
    induction parts with
    | nil => rfl
    | cons part parts ih =>
      obtain ⟨hpart, hrest⟩ := List.forall_mem_cons.mp h
      rw [List.flatMap_cons, ih hrest, names_eq, splitOn_piece separates_slash hpart, ← List.filter_append,
        List.singleton_append]
  rw [names_joinAll fun part hpart => relative_of_plain (h part hpart), hparts]

/-- A path ends with the part that was joined last, empty or not. -/
theorem splitOn_join (path : String) (h : '/' ∉ part.toList) :
    ∃ before, (join path part).splitOn "/" = before ++ [part] := by
  have hhead : part.toList.head? ≠ some '/' := fun hhead => h (List.mem_of_mem_head? hhead)
  obtain ⟨before, rfl | ⟨more, rfl⟩, hjoin⟩ : ∃ before, EndsDirectory before ∧
      (join path part).toList = before ++ part.toList := toList_join hhead
  · have hpath : join path part = part := String.toList_inj.mp hjoin
    exact ⟨[], by rw [hpath, splitOn_piece separates_slash h, List.nil_append]⟩
  · have hpath : join path part = String.ofList more ++ "/" ++ part := by
      simp [← String.toList_inj, hjoin]
    exact ⟨_, by rw [hpath, splitOn_append separates_slash, splitOn_piece separates_slash h]⟩

/-- An empty part adds the slash that the next one would add. -/
theorem join_empty (h : '/' ∉ part.toList) : join (join path "") part = join path part := by
  have hempty : join path "" = if (path.isEmpty || path.endsWith "/") = true then path else path ++ "/" := by
    rw [join, relative_of_plain (by simp), if_neg Bool.false_ne_true, String.append_empty,
      String.append_empty]
  have hslash : (path ++ "/").endsWith "/" = true := endsWith_slash.mpr ⟨path.toList, by simp⟩
  rw [hempty]
  split
  · rfl
  · rename_i hend
    rw [join, join, relative_of_plain h, if_neg Bool.false_ne_true, if_neg Bool.false_ne_true, if_neg hend,
      hslash, Bool.or_true, if_pos rfl]

theorem joinAll_empty (hne : parts ≠ []) (hparts : ∀ part ∈ parts, '/' ∉ part.toList) :
    joinAll path ("" :: parts) = joinAll path parts := by
  obtain ⟨first, parts, rfl⟩ := List.exists_cons_of_ne_nil hne
  rw [joinAll_cons, joinAll_cons, join_empty (hparts first List.mem_cons_self), joinAll_cons]

/-- Parts that do not count make no difference before one that is joined last. -/
theorem joinAll_filter (hparts : ∀ part ∈ parts, '/' ∉ part.toList ∧ part ≠ ".")
    (hpart : '/' ∉ part.toList) :
    joinAll path (parts.filter counts ++ [part]) = joinAll path (parts ++ [part]) := by
  induction parts generalizing path with
  | nil => rfl
  | cons first parts ih =>
    obtain ⟨⟨-, hpoint⟩, hparts⟩ := List.forall_mem_cons.mp hparts
    have ih (path : String) : joinAll path (parts.filter counts ++ [part]) = joinAll path (parts ++ [part]) :=
      ih hparts
    cases hcounts : counts first with
    | true =>
      rw [List.filter_cons_of_pos hcounts, List.cons_append, List.cons_append, joinAll_cons, joinAll_cons, ih]
    | false =>
      obtain rfl := (counts_eq_false_iff.mp hcounts).resolve_right hpoint
      rw [List.filter_cons_of_neg (Bool.eq_false_iff.mp hcounts), ih, List.cons_append,
        joinAll_empty (by simp)]
      simpa [or_imp, forall_and, hpart] using fun other hother => (hparts other hother).1

end Plain

end ClassAtlas.Path

namespace ClassAtlas.Java

open Document (Makes)
open Files (Disk EndsInName LeadTo Ordinary OutputError RunEnd lastText locate spelled)
open ClassAtlas.Path (counts joinAll separates_point)

/-! ## Places and paths of units -/

/-- The path of a classifier's unit below a root. -/
def pathBelow (style : UnitStyle) (root : String) (c : Classifier) : String :=
  outputPath c.namespaceName c.name root style.fileSuffix

/-- What the paths of units are made from has no slash; the standard suffix has none. -/
structure Unslashed (style : UnitStyle) (d : Diagram) : Prop where
  suffix : '/' ∉ style.fileSuffix.toList
  name : ∀ c ∈ d.classifiers, '/' ∉ c.name.toList
  namespaceName : ∀ c ∈ d.classifiers, '/' ∉ c.namespaceName.toList

section Places

variable {style : UnitStyle} {root : String} {d : Diagram} {c : Classifier}

theorem pathBelow_eq : pathBelow style root c = joinAll root (unitPlace style c) := rfl

theorem plain_segment {namespaceName s : String} (h : '/' ∉ namespaceName.toList)
    (hs : s ∈ segments namespaceName) : '/' ∉ s.toList := by
  rw [segments] at hs
  split at hs
  · cases hs
  · rw [Path.splitOn_eq separates_point] at hs
    obtain ⟨piece, hpiece, rfl⟩ := List.mem_map.mp hs
    rw [String.toList_ofList]
    exact fun hslash => h (Path.mem_of_mem_splitOn hpiece hslash)

variable (hplain : Unslashed style d) (hc : c ∈ d.classifiers)

include hplain hc

theorem Unslashed.file : '/' ∉ (c.name ++ style.fileSuffix).toList := by
  rw [String.toList_append, List.mem_append, not_or]
  exact ⟨hplain.name c hc, hplain.suffix⟩

theorem Unslashed.segment : ∀ s ∈ segments c.namespaceName, '/' ∉ s.toList := fun _ =>
  plain_segment (hplain.namespaceName c hc)

theorem Unslashed.part : ∀ part ∈ unitPlace style c, '/' ∉ part.toList := by
  intro part hpart
  rw [unitPlace, List.mem_append, List.mem_singleton] at hpart
  rcases hpart with hsegment | rfl
  · exact hplain.segment hc part hsegment
  · exact hplain.file hc

theorem Unslashed.ordinary_file (hend : EndsInName (pathBelow style root c)) :
    Ordinary (c.name ++ style.fileSuffix) := by
  obtain ⟨before, name, hpieces, hname⟩ := hend
  obtain ⟨before', hpieces'⟩ := Path.splitOn_join (joinAll root (segments c.namespaceName)) (hplain.file hc)
  rw [pathBelow_eq, unitPlace, Path.joinAll_append, hpieces'] at hpieces
  rw [List.singleton_inj.mp (List.append_inj_right' hpieces rfl)]
  exact hname

/-- A unit goes to the place of the root and then down, by the names that count. -/
theorem Unslashed.spelled_path (root : String) (hname : Ordinary (c.name ++ style.fileSuffix)) :
    spelled (pathBelow style root c) =
      spelled root ++ (segments c.namespaceName).filter counts ++ [c.name ++ style.fileSuffix] := by
  have hfile : [c.name ++ style.fileSuffix].filter counts = [c.name ++ style.fileSuffix] := by
    rw [List.filter_singleton, hname.counts]
    rfl
  have hdown : ∀ name ∈ (segments c.namespaceName).filter counts ++ [c.name ++ style.fileSuffix],
      counts name = true ∧ name ≠ ".." := by
    intro name hmem
    rcases List.mem_append.mp hmem with hsegment | hlast
    · obtain ⟨hs, hcounts⟩ := List.mem_filter.mp hsegment
      exact ⟨hcounts, (segment_ne_points hs).2⟩
    · rw [List.mem_singleton.mp hlast]
      exact ⟨hname.counts, hname.notUp⟩
  rw [spelled, pathBelow_eq, Path.names_joinAll_plain (hplain.part hc), unitPlace, List.filter_append, hfile,
    List.foldl_append, Files.foldl_stepTo_down hdown, ← spelled, List.append_assoc]

/-- The names that count and the root are all that matters to a path. -/
theorem Unslashed.path_filter : joinAll root
    ((segments c.namespaceName).filter counts ++ [c.name ++ style.fileSuffix]) = pathBelow style root c :=
  Path.joinAll_filter (fun s hs => ⟨hplain.segment hc s hs, (segment_ne_points hs).1⟩) (hplain.file hc)

omit hc in
theorem Unslashed.apart (root : String) : Files.Apart (placedUnits style root d) := by
  intro file hfile other hother hend hend' hspelled
  obtain ⟨c, hc, rfl⟩ := List.mem_map.mp hfile
  obtain ⟨c', hc', rfl⟩ := List.mem_map.mp hother
  have hplace := hplain.spelled_path hc root (hplain.ordinary_file hc hend)
  have hplace' := hplain.spelled_path hc' root (hplain.ordinary_file hc' hend')
  change spelled (pathBelow style root c) = spelled (pathBelow style root c') at hspelled
  show pathBelow style root c = pathBelow style root c'
  rw [hplace, hplace', List.append_assoc, List.append_assoc] at hspelled
  rw [← hplain.path_filter hc, ← hplain.path_filter hc', List.append_cancel_left hspelled]

end Places

/-! ## A disk that is full -/

theorem linkless_emptyOut : emptyOut.top.Linkless := by
  refine ⟨⟨_, rfl⟩, fun place target hlink => ?_⟩
  cases place with
  | nil => cases hlink
  | cons name rest =>
    rw [emptyOut, Files.Node.at?_cons, List.lookup_cons] at hlink
    cases hname : name == "out" with
    | false =>
      rw [hname] at hlink
      cases hlink
    | true =>
      rw [hname] at hlink
      cases (Files.Node.IsBlank.at?_eq (.inl rfl) hlink).2

section Out

variable {disk : Disk} {entries : List (String × Files.Node)} {name text : String}
  (hout : disk.top.at? ["out"] = some (.directory entries))

include hout

theorem leads_out : Files.Leads disk.top Files.mostLinks [] ["out"] ["out"] := by
  have hname : Ordinary "out" := by constructor <;> decide
  exact .down hname ⟨entries, hout⟩ (.here ⟨entries, hout⟩)

theorem makes_out : Makes (Disk.makeDirectories none "out") disk () disk.tick := by
  have hleads := leads_out hout
  rw [← Path.splitOn_piece Path.separates_slash (s := "out") (by decide), Files.Leads.splitOn_iff] at hleads
  exact Files.makes_makeDirectoriesWithin_there (by decide) (by decide) (by decide) hleads

variable (hname : Ordinary name) (hplain : IsPlain name) (hfree : disk.top.at? ["out", name] = none)

include hname hplain hfree

/-- Writing a new file into the directory comes to putting the text there. -/
theorem run_writeFile_out : (Files.writeFile none ("out/" ++ name) text).run.run disk =
    (Files.putText ("out/" ++ name) text ["out", name] (disk.mishap (disk.changes + 1))).run.run
      disk.tick.tick := by
  have hpath : "out/" ++ name = "out" ++ "/" ++ name := rfl
  have hend : ("out/" ++ name).endsWith "/" = false :=
    (Path.IsPart.mk hname.nonempty hplain.1).not_endsWith _
  have henters : Files.Enters disk.top ("out/" ++ name) ["out"] name := by
    refine ⟨by simpa using hplain.2, by simp, hname, ["out"], ?_, leads_out hout⟩
    rw [hpath, Path.splitOn_append Path.separates_slash, Path.splitOn_piece Path.separates_slash hplain.1,
      Path.splitOn_piece Path.separates_slash (by decide)]
  have hlocate : locate disk.top true ("out/" ++ name) = .ok (.free ["out", name]) :=
    henters.locate_eq (c := none) hfree
  have hdirectory : Path.directory ("out/" ++ name) = "out" := by
    rw [hpath, Path.directory_append hplain.1]
    decide +kernel
  have hshort : ("out/" ++ name).utf8ByteSize ≤ Files.longestPath := by
    have hout : "out/".utf8ByteSize = 4 := by decide
    have hsize := hname.short
    rw [String.utf8ByteSize_append]
    unfold Files.longestName at hsize
    unfold Files.longestPath
    omega
  rw [Files.writeFile, hdirectory, Document.run_bind_eq, makes_out hout]
  show (Files.writeAt _ text _ (Files.admitted _ (locate disk.top true _))).run.run disk.tick.tick = _
  rw [Files.admitted_short hshort, hlocate, Files.writeAt, hend]
  rfl

theorem makes_writeFile_out (hcalm : disk.mishap (disk.changes + 1) = none) :
    Makes (Files.writeFile none ("out/" ++ name) text) disk ()
      (disk.tick.tick.set ["out", name] (.file (.text text))) := by
  rw [Makes, run_writeFile_out hout hname hplain hfree, hcalm]
  rfl

theorem fails_writeFile_out {error : Files.SystemError} {n : Nat}
    (hmishap : disk.mishap (disk.changes + 1) = some { error, reached := some n }) :
    ∃ after, Files.Fails (Files.writeFile none ("out/" ++ name) text) disk (.system error ("out/" ++ name))
      after := by
  unfold Files.Fails
  rw [run_writeFile_out hout hname hplain hfree, hmishap]
  exact ⟨_, rfl⟩

end Out

/-- A disk that has no space left when the fifth change has put three characters into a file. -/
def fullDisk : Disk :=
  { emptyOut with mishap := fun n => if n = 4 then some { error := .noSpace, reached := some 3 } else none }

theorem fails_fullDisk (first second : String) : ∃ after,
    (Files.writeBelow "out" [("out/Shape.java", first), ("out/Circle.java", second)]).run.run fullDisk =
      (.error (.brokenOff 1 "out/Circle.java" (Files.AccessError.system .noSpace "out/Circle.java").message),
        after) := by
  have hout : fullDisk.top.at? ["out"] = some (.directory []) := rfl
  have hroot : Makes (Files.prepareRoot none "out") fullDisk () fullDisk.tick :=
    Files.makes_prepareRoot_there nofun ⟨[], node?_emptyOut⟩
  have hshape : Ordinary "Shape.java" := by constructor <;> decide
  have hcircle : Ordinary "Circle.java" := by constructor <;> decide
  obtain ⟨disk, hfirst, hthere, hfree, hmishap⟩ : ∃ disk,
      Makes (Files.writeFile none ("out/" ++ "Shape.java") first) fullDisk.tick () disk ∧
      (∃ entries, disk.top.at? ["out"] = some (.directory entries)) ∧
      disk.top.at? ["out", "Circle.java"] = none ∧
      disk.mishap (disk.changes + 1) = some { error := .noSpace, reached := some 3 } :=
    ⟨_, makes_writeFile_out hout hshape (by decide) rfl rfl, ⟨_, rfl⟩, rfl, rfl⟩
  obtain ⟨entries, hthere⟩ := hthere
  obtain ⟨after, hsecond⟩ : ∃ after, Files.Fails (Files.writeFile none ("out/" ++ "Circle.java") second) disk
      (.system .noSpace "out/Circle.java") after :=
    fails_writeFile_out hthere hcircle (by decide) hfree hmishap
  exact ⟨after, Files.fails_after hroot (Files.fails_after (Files.makes_asOutput hfirst)
    (Files.fails_bind (Files.fails_asOutput hsecond)))⟩

/-! ## What a run leaves -/

/-- The last of some classifiers whose unit has this path. -/
def lastWith (style : UnitStyle) (root : String) (cs : List Classifier) (path : String) : Option Classifier :=
  cs.reverse.find? fun c => pathBelow style root c == path

/-- There is a file at a path, with the whole unit of the last of some classifiers that has this path. -/
def Shows (style : UnitStyle) (root : String) (d : Diagram) (cs : List Classifier) (disk : Disk)
    (path : String) : Prop :=
  ∃ c, lastWith style root cs path = some c ∧ disk.node? path = some (.file (.text (unitOf style d c)))

/-- If the content of a file is not what it was before, the path of one of some classifiers leads to it. -/
def ChangesOnly (style : UnitStyle) (root : String) (cs : List Classifier) (before after : Disk) : Prop :=
  ∀ place, after.top.contentAt? place ≠ before.top.contentAt? place →
    ∃ c ∈ cs, ∃ content,
      locate after.top true (pathBelow style root c) = .ok (.present place (.file content))

/-- What the result of a run tells about the disk after it. -/
inductive Accounted (style : UnitStyle) (root : String) (d : Diagram) (before : Disk) :
    Except OutputError Nat → Disk → Prop where
  /-- The root was no directory and cannot be used, and all files are what they were. -/
  | unusable {reason : String} {after : Disk} (rootless : before.isDirectory root = false)
      (unchanged : ∀ place, after.top.contentAt? place = before.top.contentAt? place) :
      Accounted style root d before (.error (.unusable root reason)) after
  /-- The unit of a classifier is not written. The number is that of the classifiers before it; those of
  their units that have another path are whole. -/
  | brokenOff {done rest : List Classifier} {c : Classifier} {reason : String} {after : Disk}
      (split : d.classifiers = done ++ c :: rest)
      (changes : ChangesOnly style root (done ++ [c]) before after)
      (shows : ∀ other ∈ done, pathBelow style root other ≠ pathBelow style root c →
        Shows style root d done after (pathBelow style root other)) :
      Accounted style root d before (.error (.brokenOff done.length (pathBelow style root c) reason)) after
  /-- A path is none. -/
  | nullCharacter {after : Disk}
      (mem : '\x00' ∈ root.toList ∨ ∃ c ∈ d.classifiers, '\x00' ∈ (pathBelow style root c).toList) :
      Accounted style root d before (.error .nullCharacter) after
  /-- All units are whole. -/
  | finished {after : Disk} (changes : ChangesOnly style root d.classifiers before after)
      (shows : ∀ c ∈ d.classifiers, Shows style root d d.classifiers after (pathBelow style root c)) :
      Accounted style root d before (.ok d.classifiers.length) after

section Runs

variable {style : UnitStyle} {root path : String} {d : Diagram} {cs : List Classifier} {c : Classifier}
  {before after : Disk}

/-- What a run tells that breaks off. -/
theorem Accounted.split {n : Nat} {reason : String}
    (h : Accounted style root d before (.error (.brokenOff n path reason)) after) :
    ∃ done c rest, d.classifiers = done ++ c :: rest ∧ n = done.length ∧ path = pathBelow style root c ∧
      ChangesOnly style root (done ++ [c]) before after ∧
      ∀ other ∈ done, pathBelow style root other ≠ path →
        Shows style root d done after (pathBelow style root other) := by
  cases h with
  | brokenOff hsplit hchanges hshows => exact ⟨_, _, _, hsplit, rfl, rfl, hchanges, hshows⟩

/-- A unit with its path. -/
def placed (style : UnitStyle) (root : String) (d : Diagram) (c : Classifier) : String × String :=
  (pathBelow style root c, unitOf style d c)

theorem placedUnits_eq_map : placedUnits style root d = d.classifiers.map (placed style root d) := rfl

theorem lastText_placed :
    lastText (cs.map (placed style root d)) path = (lastWith style root cs path).map (unitOf style d) := by
  rw [lastText, lastWith, ← List.map_reverse]
  induction cs.reverse with
  | nil => rfl
  | cons c cs ih =>
    rw [List.map_cons, placed, List.lookup_cons, List.find?_cons, BEq.comm]
    cases hsame : pathBelow style root c == path with
    | true => rfl
    | false => exact ih

theorem shows_of_lastText (h : ∃ text, lastText (cs.map (placed style root d)) path = some text ∧
    Files.HoldsFile after path (.text text)) : Shows style root d cs after path := by
  obtain ⟨text, hlast, holds⟩ := h
  rw [lastText_placed] at hlast
  obtain ⟨c, hc, rfl⟩ := Option.map_eq_some_iff.mp hlast
  exact ⟨c, hc, holds.node?_eq⟩

theorem changesOnly_of_grown
    (h : Files.Node.Grown (LeadTo after (cs.map (placed style root d))) before.top after.top) :
    ChangesOnly style root cs before after := by
  intro place hplace
  obtain ⟨file, hfile, hlead⟩ := not_imp_comm.mp (h.content place) hplace
  obtain ⟨c, hc, rfl⟩ := List.mem_map.mp hfile
  exact ⟨c, hc, hlead⟩

/-- What becomes of the units of a diagram when they are written to a disk without links, whatever befalls
the changes that the run tries. If the root cannot be used, it was no directory, and no file has changed. If
the run breaks off after some units, the path that is told is that of the next classifier; files have changed
only where paths of the classifiers up to that one lead, and each path of those before it, if it is another,
holds the whole unit of the last of them that has it. If the run ends, its number is that of the classifiers,
and each path holds the unit of the last classifier that has it. -/
theorem writeBelow_accounted {disk : Disk} (hplain : Unslashed style d) (hlinkless : disk.top.Linkless)
    (root : String) : Accounted style root d disk
      ((Files.writeBelow root (placedUnits style root d)).run.run disk).1
      ((Files.writeBelow root (placedUnits style root d)).run.run disk).2 := by
  have hend := Files.runEnd_writeBelow hlinkless (hplain.apart root) root
  rw [placedUnits_eq_map] at hend ⊢
  generalize (Files.writeBelow root (d.classifiers.map (placed style root d))).run.run disk = outcome
    at hend ⊢
  obtain ⟨result, after⟩ := outcome
  cases hend with
  | unusable hrootless hgrown => exact .unusable hrootless fun place => hgrown.content place id
  | brokenOff hsplit hbroken =>
    obtain ⟨done, more, hclasses, rfl, hmore⟩ := List.map_eq_append_iff.mp hsplit
    obtain ⟨c, rest, rfl, rfl, rfl⟩ := List.map_eq_cons_iff.mp hmore
    obtain ⟨hgrown, hwhole⟩ := hbroken
    rw [← List.map_singleton, ← List.map_append] at hgrown
    rw [List.length_map]
    refine .brokenOff hclasses (changesOnly_of_grown hgrown) fun other hother hne => ?_
    exact shows_of_lastText (hwhole _ (List.mem_map_of_mem hother) hne)
  | nullCharacter hmem =>
    refine .nullCharacter (hmem.imp_right ?_)
    rintro ⟨file, hfile, hnull⟩
    obtain ⟨c, hc, rfl⟩ := List.mem_map.mp hfile
    exact ⟨c, hc, hnull⟩
  | finished hprogress =>
    rw [List.length_map]
    refine .finished (changesOnly_of_grown hprogress.grown) fun c hc => ?_
    exact shows_of_lastText (hprogress.whole _ (List.mem_map_of_mem hc))

end Runs

/-- When the disk is full in the middle of the second unit, the first one is whole. -/
theorem writeBelow_accounted_torn :
    let d : Diagram := { (DiagramOf.empty "shapes" "" none none none {}).1 with
      elements := [.classifier (bareClass 0 "Shape"), .classifier (bareClass 1 "Circle")] }
    Unslashed {} d ∧ fullDisk.top.Linkless ∧ ∃ reason after,
      (Files.writeBelow "out" (placedUnits {} "out" d)).run.run fullDisk =
        (.error (.brokenOff 1 "out/Circle.java" reason), after) ∧
      after.node? "out/Shape.java" = some (.file (.text (unitOf {} d (bareClass 0 "Shape")))) := by
  intro d
  have hclasses : d.classifiers = [bareClass 0 "Shape", bareClass 1 "Circle"] := rfl
  have hplain : Unslashed {} d := by
    refine ⟨by decide, ?_, ?_⟩ <;> rw [hclasses] <;> decide
  obtain ⟨after, hrun⟩ :=
    fails_fullDisk (unitOf {} d (bareClass 0 "Shape")) (unitOf {} d (bareClass 1 "Circle"))
  have hpath (key : Nat) {name : String} (hpart : Path.IsPart (name ++ ".java")) :
      pathBelow {} "out" (bareClass key name) = "out/" ++ (name ++ ".java") :=
    Path.join_of_not_slash hpart (by decide +kernel) (by decide)
  have hshape : pathBelow {} "out" (bareClass 0 "Shape") = "out/Shape.java" :=
    hpath 0 ⟨by decide, by decide⟩
  have hcircle : pathBelow {} "out" (bareClass 1 "Circle") = "out/Circle.java" :=
    hpath 1 ⟨by decide, by decide⟩
  have hplaced : placedUnits {} "out" d = [("out/Shape.java", unitOf {} d (bareClass 0 "Shape")),
      ("out/Circle.java", unitOf {} d (bareClass 1 "Circle"))] := by
    rw [placedUnits_eq_map, hclasses, List.map_cons, List.map_singleton, placed, placed, hshape, hcircle]
  have hlinkless : fullDisk.top.Linkless := linkless_emptyOut
  have haccounted := writeBelow_accounted hplain hlinkless "out"
  rw [hplaced, hrun] at haccounted
  rw [hplaced]
  refine ⟨hplain, hlinkless, _, after, hrun, ?_⟩
  obtain ⟨done, c, rest, hsplit, hnumber, -, -, hshows⟩ := haccounted.split
  rw [hclasses] at hsplit
  obtain ⟨first, rfl⟩ := List.length_eq_one_iff.mp hnumber.symm
  obtain rfl := (List.cons_eq_cons.mp hsplit).1
  obtain ⟨last, hlast, hnode⟩ := hshows _ List.mem_cons_self (by rw [hshape]; decide)
  obtain rfl := List.mem_singleton.mp (List.mem_reverse.mp (List.mem_of_find?_eq_some hlast))
  rwa [hshape] at hnode

end ClassAtlas.Java
