import ClassAtlas.Proofs.BuiltDefects
import ClassAtlas.Proofs.SurvivingSupertypes
import ClassAtlas.Proofs.WrittenFiles

/-! # Written units

The path of a unit tells the namespace and the name of its classifier. So the units of a diagram without
duplicates have paths of their own, and each of them becomes a file below a directory that was empty;
nothing else does. The one name that no file can have is that of the directory above; and names, paths and the
calls that make directories have their limits. -/

namespace ClassAtlas.Java

open Files (Content Disk IsTarget Ordinary longestName longestPath)
open ClassAtlas.Path (IsPart joinAll separates_point)

/-! ## Paths of units -/

section Paths

variable {style : UnitStyle} {d : Diagram} {c : Classifier} {namespaceName other : String}

/-- The names of the directories that stand for a namespace. -/
def segments (namespaceName : String) : List String :=
  if namespaceName.isEmpty then [] else namespaceName.splitOn "."

/-- The names from the root of all units to the unit of a classifier. -/
def unitPlace (style : UnitStyle) (c : Classifier) : List String :=
  segments c.namespaceName ++ [c.name ++ style.fileSuffix]

/-- The path of a classifier's unit from the root of all units. -/
def unitPath (style : UnitStyle) (c : Classifier) : String :=
  outputPath c.namespaceName c.name "" style.fileSuffix

/-- A text without slashes and null characters. -/
def IsPlain (s : String) : Prop := '/' ∉ s.toList ∧ '\x00' ∉ s.toList

instance (s : String) : Decidable (IsPlain s) := inferInstanceAs (Decidable (_ ∧ _))

/-- What makes the paths of units are plain texts, none of them empty, and the suffix has a point. -/
structure PlainPaths (style : UnitStyle) (d : Diagram) : Prop where
  suffix : IsPlain style.fileSuffix ∧ '.' ∈ style.fileSuffix.toList
  name : ∀ c ∈ d.classifiers, c.name ≠ "" ∧ IsPlain c.name
  segment : ∀ c ∈ d.classifiers, ∀ s ∈ segments c.namespaceName, s ≠ "" ∧ IsPlain s

theorem outputPath_eq {root : String} : outputPath c.namespaceName c.name root style.fileSuffix =
    joinAll root (unitPlace style c) := rfl

theorem segments_injective (h : segments namespaceName = segments other) : namespaceName = other := by
  have hsplit (namespaceName : String) : namespaceName = ".".intercalate (segments namespaceName) := by
    rw [segments]
    split
    · rename_i hempty
      exact String.isEmpty_iff.mp hempty
    · exact (Path.intercalate_splitOn separates_point namespaceName).symm
  rw [hsplit namespaceName, h, ← hsplit other]

/-- A namespace has the names that it was put together from. -/
theorem segments_intercalate {parts : List String} (hne : parts ≠ [])
    (hparts : ∀ part ∈ parts, part ≠ "" ∧ '.' ∉ part.toList) : segments (".".intercalate parts) = parts := by
  have hsplit := Path.splitOn_intercalate separates_point hne fun part hpart => (hparts part hpart).2
  have hempty : ".".intercalate parts ≠ "" := by
    intro hempty
    rw [hempty, Path.splitOn_piece separates_point (by simp)] at hsplit
    exact (hparts "" (hsplit ▸ List.mem_cons_self)).1 rfl
  rw [segments, if_neg (mt String.isEmpty_iff.mp hempty), hsplit]

theorem bare_segment {s : String} (h : s ∈ segments namespaceName) : Files.Node.IsBare s := by
  rw [segments] at h
  split at h
  · cases h
  · exact Path.pieces_plain separates_point h

theorem segment_ne_points {s : String} (hs : s ∈ segments namespaceName) :
    s ≠ "." ∧ s ≠ ".." := by
  constructor
  · rintro rfl
    exact bare_segment hs (by decide)
  · rintro rfl
    exact bare_segment hs (by decide)

variable (hplain : PlainPaths style d) (hc : c ∈ d.classifiers)

include hplain hc

theorem PlainPaths.isPlain : ∀ name ∈ unitPlace style c, name ≠ "" ∧ IsPlain name := by
  intro name hname
  rw [unitPlace, List.mem_append, List.mem_singleton] at hname
  rcases hname with hsegment | rfl
  · exact hplain.segment c hc name hsegment
  · obtain ⟨hne, hslash, hnull⟩ := hplain.name c hc
    obtain ⟨hslash', hnull'⟩ := hplain.suffix.1
    refine ⟨by simp [hne], ?_, ?_⟩
    · rw [String.toList_append, List.mem_append, not_or]
      exact ⟨hslash, hslash'⟩
    · rw [String.toList_append, List.mem_append, not_or]
      exact ⟨hnull, hnull'⟩

theorem PlainPaths.isPart : ∀ name ∈ unitPlace style c, IsPart name := fun name hname =>
  ⟨(hplain.isPlain hc name hname).1, (hplain.isPlain hc name hname).2.1⟩

/-- The names on its path say where a unit goes. -/
theorem PlainPaths.splitOn_unitPath : (unitPath style c).splitOn "/" = unitPlace style c :=
  Path.splitOn_joinAll_nil (List.append_ne_nil_of_right_ne_nil _ (List.cons_ne_nil _ _))
    (hplain.isPart hc)

theorem PlainPaths.areDirectories
    (hshort : ∀ s ∈ segments c.namespaceName, s.utf8ByteSize ≤ longestName) :
    Files.AreDirectories (segments c.namespaceName) := by
  intro s hs
  obtain ⟨hhere, hup⟩ := segment_ne_points hs
  exact ⟨⟨(hplain.segment c hc s hs).1, hhere, hup, hshort s hs⟩, bare_segment hs⟩

omit hc in
theorem PlainPaths.isFilePlace : Files.Node.IsFilePlace (unitPlace style c) := by
  refine ⟨_, _, rfl, fun _ => bare_segment, ?_⟩
  rw [Files.Node.IsBare, not_not, String.toList_append]
  exact List.mem_append_right _ hplain.suffix.2

/-- A file system takes the names, if they are short and the unit is not called like the directory
above. -/
theorem PlainPaths.isTarget (hup : c.name ++ style.fileSuffix ≠ "..")
    (hshort : ∀ name ∈ unitPlace style c, name.utf8ByteSize ≤ longestName) :
    IsTarget (unitPlace style c) := by
  refine ⟨hplain.isFilePlace, fun name hname => ?_, fun name hname => (hplain.isPlain hc name hname).2.1,
    fun name hname => (hplain.isPlain hc name hname).2.2⟩
  have hne := (hplain.isPlain hc name hname).1
  have hsize := hshort name hname
  rw [unitPlace, List.mem_append, List.mem_singleton] at hname
  rcases hname with hsegment | rfl
  · obtain ⟨hhere, hup⟩ := segment_ne_points hsegment
    exact ⟨hne, hhere, hup, hsize⟩
  · refine ⟨hne, fun hhere => ?_, hup, hsize⟩
    -- a name and a suffix are two characters at least
    have hlength := congrArg String.length hhere
    have hname := (String.length_eq_zero_iff (s := c.name)).not.mpr (hplain.name c hc).1
    have hsuffix : style.fileSuffix.length ≠ 0 := by
      rw [← String.length_toList]
      exact (List.length_pos_of_mem hplain.suffix.2).ne'
    rw [String.length_append] at hlength
    have hone : ".".length = 1 := rfl
    omega

end Paths

/-! ## Units and their files -/

section Units

variable {style : UnitStyle} {d : Diagram} {root : String}

/-- A name that is given twice is only reported by the rule for names. -/
theorem duplicateName_mem_defects {name : String} :
    .duplicateName name ∈ Validation.defects d ↔ .duplicateName name ∈ Validation.duplicateNames d := by
  have hends (r : Relationship) (side : Side) (text? : Option String) :
      .duplicateName name ∉ Validation.endDefect r side text? := by
    unfold Validation.endDefect
    split
    · exact List.not_mem_nil
    · split <;> simp
  have hparents : .duplicateName name ∉ Validation.multipleInheritance d := by
    intro hmem
    obtain ⟨c, -, hc⟩ := List.mem_filterMap.mp hmem
    dsimp only at hc
    split at hc <;> cases hc
  simp [Validation.defects, Validation.inheritanceCycles, Validation.implementationTargets,
    Validation.multiplicities, hends, hparents]

theorem unique_iff : (∀ name, Validation.Defect.duplicateName name ∉ Validation.defects d) ↔
    d.classifiers.Pairwise fun a b => (a.namespaceName, a.name) ≠ (b.namespaceName, b.name) := by
  simp only [duplicateName_mem_defects]
  rw [← Validation.duplicateNames_eq_nil, List.eq_nil_iff_forall_not_mem]
  refine ⟨fun h defect hmem => ?_, fun h name => h _⟩
  obtain ⟨_, c, -, -, -, rfl⟩ := Validation.mem_duplicateNames.mp hmem
  exact h _ hmem

variable (hunique : ∀ name, Validation.Defect.duplicateName name ∉ Validation.defects d)

include hunique

/-- Units have places of their own if no name is given twice in a namespace. -/
theorem nodup_unitPlaces (style : UnitStyle) : (d.classifiers.map (unitPlace style)).Nodup := by
  rw [List.nodup_iff_pairwise_ne, List.pairwise_map]
  refine (unique_iff.mp hunique).imp fun {a b} hne hplace => hne ?_
  obtain ⟨hsegments, hname⟩ := List.append_inj' hplace rfl
  have hname := String.toList_inj.mpr (List.singleton_inj.mp hname)
  rw [String.toList_append, String.toList_append] at hname
  rw [segments_injective hsegments, String.toList_inj.mp (List.append_cancel_right hname)]

theorem PlainPaths.nodup_unitPaths (hplain : PlainPaths style d) :
    (d.classifiers.map (unitPath style)).Nodup := by
  have hplaces := nodup_unitPlaces hunique style
  have hsplit : (d.classifiers.map (unitPath style)).map (·.splitOn "/") =
      d.classifiers.map (unitPlace style) := by
    rw [List.map_map]
    exact List.map_congr_left fun c hc => hplain.splitOn_unitPath hc
  exact .of_map _ (hsplit ▸ hplaces)

/-- No unit takes the place of another. -/
theorem PlainPaths.units_eq (hplain : PlainPaths style d) :
    units style d = d.classifiers.map fun c => (unitPath style c, unitOf style d c) := by
  have hpaths : (([] : List (String × String)).map (·.1) ++ d.classifiers.map (unitPath style)).Nodup :=
    hplain.nodup_unitPaths hunique
  exact (foldl_putFile hpaths).trans (List.nil_append _)

end Units

/-! ## Units on a disk -/

section Targets

variable {style : UnitStyle} {d : Diagram} {root : String} {place : List String} {n : Files.Node}
  {nesting? : Option Nat}

/-- The units of a diagram with their places. -/
def targets (style : UnitStyle) (d : Diagram) : List (List String × String) :=
  d.classifiers.map fun c => (unitPlace style c, unitOf style d c)

theorem length_targets : (targets style d).length = d.classifiers.length := List.length_map _

theorem placedUnits_eq :
    placedUnits style root d = (targets style d).map fun t => (joinAll root t.1, t.2) := by
  rw [targets, List.map_map]
  rfl

theorem PlainPaths.isTarget_of_mem_targets (hplain : PlainPaths style d)
    (hup : ∀ c ∈ d.classifiers, c.name ++ style.fileSuffix ≠ "..")
    (hshort : ∀ c ∈ d.classifiers, ∀ name ∈ unitPlace style c, name.utf8ByteSize ≤ longestName) :
    ∀ t ∈ targets style d, IsTarget t.1 := by
  intro t ht
  obtain ⟨c, hc, rfl⟩ := List.mem_map.mp ht
  exact hplain.isTarget hc (hup c hc) (hshort c hc)

theorem fits_of_mem_targets
    (hpaths : ∀ c ∈ d.classifiers,
      (outputPath c.namespaceName c.name root style.fileSuffix).utf8ByteSize ≤ longestPath)
    (hnesting : ∀ n ∈ nesting?, 0 < n ∧ ∀ c ∈ d.classifiers, (segments c.namespaceName).length ≤ n) :
    ∀ t ∈ targets style d, Files.Fits nesting? root t.1 := by
  intro t ht
  obtain ⟨c, hc, rfl⟩ := List.mem_map.mp ht
  refine ⟨hpaths c hc, fun n hn => ⟨(hnesting n hn).1, ?_⟩⟩
  show (segments c.namespaceName ++ [_]).dropLast.length ≤ n
  rw [List.dropLast_concat]
  exact (hnesting n hn).2 c hc

/-- The tree that grew by the units has them for its files, at the places that their paths name. -/
theorem PlainPaths.at?_written (hplain : PlainPaths style d)
    (hunique : ∀ name, Validation.Defect.duplicateName name ∉ Validation.defects d)
    (hfile : ∀ entries, n ≠ .directory entries) :
    (Files.Node.growAll (.directory []) ((targets style d).map fun t => (t.1, .text t.2))).at? place =
        some n ↔
      ∃ file ∈ units style d, file.1.splitOn "/" = place ∧ n = .file (.text file.2) := by
  have hplaces : ∀ file ∈ (targets style d).map fun t => (t.1, Content.text t.2),
      Files.Node.IsFilePlace file.1 := by
    simp only [targets, List.map_map, List.forall_mem_map]
    exact fun c _ => hplain.isFilePlace
  have hdistinct : (((targets style d).map fun t => (t.1, Content.text t.2)).map (·.1)).Nodup := by
    simp only [targets, List.map_map]
    exact nodup_unitPlaces hunique style
  rw [Files.Node.at?_growAll_empty hplaces hdistinct hfile, hplain.units_eq hunique]
  constructor
  · rintro ⟨content, rfl, hmem⟩
    obtain ⟨t, ht, heq⟩ := List.mem_map.mp hmem
    cases heq
    obtain ⟨c, hc, rfl⟩ := List.mem_map.mp ht
    exact ⟨_, List.mem_map_of_mem hc, hplain.splitOn_unitPath hc, rfl⟩
  · rintro ⟨file, hmem, rfl, rfl⟩
    obtain ⟨c, hc, rfl⟩ := List.mem_map.mp hmem
    refine ⟨_, rfl, List.mem_map.mpr ⟨_, List.mem_map_of_mem hc, ?_⟩⟩
    exact Prod.ext (hplain.splitOn_unitPath hc).symm rfl

end Targets

/-! ## Units that are not written -/

section Unwritten

variable {style : UnitStyle} {d : Diagram} {c : Classifier} {rest : List Classifier} {disk : Disk}
  {root : String} (hplain : PlainPaths style d) (hfirst : d.classifiers = c :: rest)
  (hshort : ∀ s ∈ segments c.namespaceName, s.utf8ByteSize ≤ longestName) (hcalm : ∀ n, disk.mishap n = none)
  (hempty : disk.node? root = some (.directory []))

include hplain hfirst hshort hcalm hempty

/-- A first unit at an entry that no new file can be is not written, and the run ends with it. -/
theorem PlainPaths.unwritten {error : Files.SystemError}
    (hdirectory : (joinAll root (segments c.namespaceName)).utf8ByteSize ≤ longestPath)
    (hbad : Files.Unusable root (segments c.namespaceName) (c.name ++ style.fileSuffix) error) :
    ∃ disk', (Files.writeBelow root (placedUnits style root d)).run.run disk =
      (.error (.brokenOff 0 (joinAll root (unitPlace style c))
        (Files.AccessError.system error (joinAll root (unitPlace style c))).message), disk') := by
  have hc : c ∈ d.classifiers := hfirst ▸ List.mem_cons_self
  have hparts : ∀ part ∈ unitPlace style c, IsPart part ∧ '\x00' ∉ part.toList := fun part hpart =>
    ⟨hplain.isPart hc part hpart, (hplain.isPlain hc part hpart).2.2⟩
  have hlast : IsPart (c.name ++ style.fileSuffix) :=
    (hparts _ (List.mem_append_right _ List.mem_cons_self)).1
  have hdirectory' : (Path.directory (joinAll root (unitPlace style c))).utf8ByteSize ≤ longestPath := by
    rw [unitPlace, Path.joinAll_append]
    exact (Path.size_directory_join_le hlast).trans hdirectory
  rw [placedUnits, hfirst, List.map_cons, outputPath_eq]
  exact Files.fails_writeBelow hcalm hempty (hplain.areDirectories hc hshort) hparts hdirectory' hbad

/-- Nor is one with a deeper namespace than calls may nest, and this is no failure of the system. -/
theorem PlainPaths.unwritten_nested {nesting : Nat} (hpositive : 0 < nesting)
    (hmore : nesting < (segments c.namespaceName).length) :
    ∃ disk', (Files.writeBelowWithin (some nesting) root (placedUnits style root d)).run.run disk =
      (.error .tooNested, disk') := by
  have hc : c ∈ d.classifiers := hfirst ▸ List.mem_cons_self
  rw [placedUnits, hfirst, List.map_cons, outputPath_eq]
  exact Files.fails_writeBelow_nested hcalm hempty hpositive hmore (hplain.areDirectories hc hshort)
    (hplain.isPart hc)

end Unwritten

/-- A disk with an empty directory, and nothing else. -/
def emptyOut : Disk := { top := .directory [("out", .directory [])] }

theorem node?_emptyOut : emptyOut.node? "out" = some (.directory []) := by
  have hname : Ordinary "out" := by constructor <;> decide
  exact Files.node?_top hname ⟨hname.nonempty, by decide⟩ (by decide) []

theorem not_endsWith_out : "out".endsWith "/" = false := by decide +kernel

/-- A diagram of one class. -/
def single (name : String) (namespaceName : String := "") : Diagram :=
  { (DiagramOf.empty name "" none none none {}).1 with
    elements := [.classifier { bareClass 0 name with namespaceName }] }

section Single

variable {style : UnitStyle} {name namespaceName : String} {error : Files.SystemError} {place : List String}

theorem classifiers_single :
    (single name namespaceName).classifiers = [{ bareClass 0 name with namespaceName }] := rfl

theorem unique_single (name namespaceName other : String) :
    Validation.Defect.duplicateName other ∉ Validation.defects (single name namespaceName) :=
  unique_iff.mpr (classifiers_single ▸ List.pairwise_singleton _ _) other

theorem plainPaths_single (hsuffix : IsPlain style.fileSuffix ∧ '.' ∈ style.fileSuffix.toList)
    (hname : name ≠ "" ∧ IsPlain name) (hsegments : segments namespaceName = place)
    (hplace : ∀ s ∈ place, s ≠ "" ∧ IsPlain s) : PlainPaths style (single name namespaceName) := by
  refine ⟨hsuffix, ?_, ?_⟩
  · rw [classifiers_single]
    exact List.forall_mem_singleton.mpr hname
  · rw [classifiers_single]
    exact List.forall_mem_singleton.mpr (hsegments ▸ hplace)

/-- A class at an entry that no new file can be is not written to an empty directory. -/
theorem PlainPaths.single_unwritten (hplain : PlainPaths style (single name namespaceName))
    (hsegments : segments namespaceName = place) (hshort : ∀ s ∈ place, s.utf8ByteSize ≤ longestName)
    (hdirectory : (joinAll "out" place).utf8ByteSize ≤ longestPath)
    (hbad : Files.Unusable "out" place (name ++ style.fileSuffix) error) :
    ∃ disk', (Files.writeBelow "out" (placedUnits style "out" (single name namespaceName))).run.run emptyOut =
      (.error (.brokenOff 0 (joinAll "out" (place ++ [name ++ style.fileSuffix]))
        (Files.AccessError.system error (joinAll "out" (place ++ [name ++ style.fileSuffix]))).message),
          disk') := by
  subst hsegments
  exact hplain.unwritten classifiers_single hshort (fun _ => rfl) node?_emptyOut hdirectory hbad

/-- At the top of the directory that is the entry of its name. -/
theorem PlainPaths.single_unwritten_top (hplain : PlainPaths style (single name))
    (hbad : Files.Unusable "out" [] (name ++ style.fileSuffix) error) :
    ∃ disk', (Files.writeBelow "out" (placedUnits style "out" (single name))).run.run emptyOut =
      (.error (.brokenOff 0 ("out/" ++ (name ++ style.fileSuffix))
        (Files.AccessError.system error ("out/" ++ (name ++ style.fileSuffix))).message), disk') := by
  have hpart : IsPart (name ++ style.fileSuffix) :=
    hplain.isPart List.mem_cons_self _ List.mem_cons_self
  have hpath : joinAll "out" [name ++ style.fileSuffix] = "out/" ++ (name ++ style.fileSuffix) :=
    Path.join_of_not_slash hpart not_endsWith_out (by decide)
  rw [← hpath]
  exact hplain.single_unwritten rfl nofun (by decide) hbad

theorem segments_red : segments "trees.red" = ["trees", "red"] := by
  have hjoined : "trees.red" = ".".intercalate ["trees", "red"] := by decide
  rw [hjoined]
  exact segments_intercalate (by decide) (by decide)

variable {size : Nat} {part : String}

theorem utf8Len_letters : String.utf8Len (List.replicate size 'a') = size := by
  induction size with
  | zero => rfl
  | succ size ih =>
    rw [List.replicate_succ, String.utf8Len_cons, ih]
    rfl

/-- A name of letters is plain, and as long as there are letters. -/
theorem letters_plain (hpart : part = String.ofList (List.replicate (size + 1) 'a')) :
    (part ≠ "" ∧ IsPlain part) ∧ '.' ∉ part.toList ∧ part.utf8ByteSize = size + 1 := by
  have hletters {c : Char} (hc : c ∈ part.toList) : c = 'a' := by
    rw [hpart, String.toList_ofList] at hc
    exact List.eq_of_mem_replicate hc
  refine ⟨⟨?_, fun h => absurd (hletters h) (by decide), fun h => absurd (hletters h) (by decide)⟩,
    fun h => absurd (hletters h) (by decide), ?_⟩
  · rw [hpart, ne_eq, String.ofList_eq_empty_iff]
    exact List.cons_ne_nil _ _
  · rw [hpart, String.utf8ByteSize_ofList, utf8Len_letters]

end Single

/-! ## All units are written -/

/-- If no name is given twice in a namespace, each classifier has its unit under a path of its own. When
they are written below an empty directory on a disk where nothing befalls a change, all of them are, and
then just these units are below it, apart from directories. For that no unit may be called like the
directory above, no name and no path may be longer than the disk takes, and no namespace may be deeper than calls
may nest. -/
theorem units_written {style : UnitStyle} {d : Diagram} (hplain : PlainPaths style d)
    (hunique : ∀ name, Validation.Defect.duplicateName name ∉ Validation.defects d) :
    units style d = d.classifiers.map (fun c =>
        (outputPath c.namespaceName c.name "" style.fileSuffix, unitOf style d c)) ∧
      ((units style d).map (·.1)).Nodup ∧
      ∀ (disk : Disk) (root : String) (nesting? : Option Nat), (∀ n, disk.mishap n = none) →
        disk.node? root = some (.directory []) →
        (∀ c ∈ d.classifiers, c.name ++ style.fileSuffix ≠ "..") →
        (∀ c ∈ d.classifiers, ∀ name ∈ unitPlace style c, name.utf8ByteSize ≤ longestName) →
        (∀ c ∈ d.classifiers,
          (outputPath c.namespaceName c.name root style.fileSuffix).utf8ByteSize ≤ longestPath) →
        (∀ n ∈ nesting?, 0 < n ∧ ∀ c ∈ d.classifiers, (segments c.namespaceName).length ≤ n) →
        ∃ disk' tree, (Files.writeBelowWithin nesting? root (placedUnits style root d)).run.run disk =
            (.ok d.classifiers.length, disk') ∧ disk'.node? root = some tree ∧
          ∀ place n, (∀ entries, n ≠ .directory entries) → (tree.at? place = some n ↔
            ∃ file ∈ units style d, file.1.splitOn "/" = place ∧ n = .file (.text file.2)) := by
  have hunits := hplain.units_eq hunique
  refine ⟨hunits, ?_, fun disk root nesting? hcalm hempty hup hshort hpaths hnesting => ?_⟩
  · rw [hunits, List.map_map]
    exact hplain.nodup_unitPaths hunique
  obtain ⟨disk', hmakes, htree⟩ := Files.makes_writeBelow hcalm (fun n hn => (hnesting n hn).1) hempty
    fun t ht => ⟨hplain.isTarget_of_mem_targets hup hshort t ht, fits_of_mem_targets hpaths hnesting t ht⟩
  rw [← placedUnits_eq, length_targets] at hmakes
  exact ⟨disk', _, hmakes, htree, fun place n hfile => hplain.at?_written hunique hfile⟩

/-- Two classes of one name in two namespaces are written to an empty directory. -/
theorem units_written_twins :
    let first := { bareClass 0 "a" with name := "Node" }
    let second := { bareClass 1 "b" with name := "Node", namespaceName := "trees.red" }
    let d : Diagram := { (DiagramOf.empty "trees" "" none none none {}).1 with
      elements := [.classifier first, .classifier second] }
    PlainPaths {} d ∧ (∀ name, Validation.Defect.duplicateName name ∉ Validation.defects d) ∧
      (units {} d).map (·.1.splitOn "/") = [["Node.java"], ["trees", "red", "Node.java"]] ∧
      ∃ disk', (Files.writeBelowWithin (some 2) "out" (placedUnits {} "out" d)).run.run emptyOut =
        (.ok 2, disk') := by
  intro first second d
  have hclasses : d.classifiers = [first, second] := rfl
  have hsegments : segments "trees.red" = ["trees", "red"] := segments_red
  have hplain : PlainPaths {} d := by
    refine ⟨by decide, ?_, ?_⟩
    · rw [hclasses]
      simp only [List.forall_mem_cons, first, second]
      decide
    · simp only [hclasses, List.forall_mem_cons]
      have hfirst : segments first.namespaceName = [] := rfl
      have hsecond : segments second.namespaceName = ["trees", "red"] := hsegments
      rw [hfirst, hsecond]
      decide
  have hunique : ∀ name, Validation.Defect.duplicateName name ∉ Validation.defects d := by
    rw [unique_iff, hclasses]
    exact .cons (by decide) (.cons (fun _ hmem => nomatch hmem) .nil)
  have hfirst : unitPlace {} first = ["Node.java"] := by decide
  have hsecond : unitPlace {} second = ["trees", "red", "Node.java"] := by
    have hplace : unitPlace {} second = segments "trees.red" ++ ["Node.java"] := rfl
    rw [hplace, hsegments]
    rfl
  have hshort : ∀ c ∈ d.classifiers, ∀ name ∈ unitPlace {} c, name.utf8ByteSize ≤ longestName := by
    simp only [hclasses, List.forall_mem_cons, hfirst, hsecond]
    decide
  obtain ⟨hunits, -, hwrites⟩ := units_written hplain hunique
  have hup : ∀ c ∈ d.classifiers, c.name ++ ({} : UnitStyle).fileSuffix ≠ ".." := by
    rw [hclasses]
    decide
  have hpaths : ∀ c ∈ d.classifiers,
      (outputPath c.namespaceName c.name "out" ({} : UnitStyle).fileSuffix).utf8ByteSize ≤ longestPath := by
    intro c hc
    rw [outputPath_eq, Path.size_joinAll not_endsWith_out (by decide) (hplain.isPart hc)]
    revert c
    simp only [hclasses, List.forall_mem_cons, hfirst, hsecond]
    decide
  have hnesting : ∀ n ∈ some 2, 0 < n ∧ ∀ c ∈ d.classifiers, (segments c.namespaceName).length ≤ n := by
    have hroot : segments first.namespaceName = [] := rfl
    have hred : segments second.namespaceName = ["trees", "red"] := hsegments
    simp only [hclasses, List.forall_mem_cons, hroot, hred]
    decide
  obtain ⟨disk', tree, hrun, -⟩ :=
    hwrites emptyOut "out" (some 2) (fun _ => rfl) node?_emptyOut hup hshort hpaths hnesting
  refine ⟨hplain, hunique, ?_, disk', hrun⟩
  rw [hunits, hclasses]
  show [(unitPath {} first).splitOn "/", (unitPath {} second).splitOn "/"] = _
  rw [hplain.splitOn_unitPath (by simp [hclasses]), hplain.splitOn_unitPath (by simp [hclasses]),
    hfirst, hsecond]

/-- The unit of a class called by a point, with a point for a suffix, would be the directory above; a name can
be too long for the disk, and so can a path of short names; and a namespace can be deeper than calls may nest.
No such unit is written to an empty directory. -/
theorem units_unwritten_point :
    let pointed : UnitStyle := { fileSuffix := "." }
    let long := String.ofList (List.replicate 251 'a')
    let parts := List.replicate 18 (String.ofList (List.replicate 226 'a'))
    (∀ n, emptyOut.mishap n = none) ∧ emptyOut.node? "out" = some (.directory []) ∧
      (PlainPaths pointed (single ".") ∧
        (∀ name, Validation.Defect.duplicateName name ∉ Validation.defects (single ".")) ∧
        ∃ disk', (Files.writeBelow "out" (placedUnits pointed "out" (single "."))).run.run emptyOut =
          (.error (.brokenOff 0 "out/.." (Files.AccessError.system .isDirectory "out/..").message),
            disk')) ∧
      (PlainPaths {} (single long) ∧
        (∀ name, Validation.Defect.duplicateName name ∉ Validation.defects (single long)) ∧
        ∃ disk', (Files.writeBelow "out" (placedUnits {} "out" (single long))).run.run emptyOut =
          (.error (.brokenOff 0 ("out/" ++ (long ++ ".java"))
            (Files.AccessError.system .nameTooLong ("out/" ++ (long ++ ".java"))).message), disk')) ∧
      (PlainPaths {} (single "Shape" (".".intercalate parts)) ∧
        (∀ name, Validation.Defect.duplicateName name ∉
          Validation.defects (single "Shape" (".".intercalate parts))) ∧
        ∃ disk', (Files.writeBelow "out"
            (placedUnits {} "out" (single "Shape" (".".intercalate parts)))).run.run emptyOut =
          (.error (.brokenOff 0 (joinAll "out" (parts ++ ["Shape.java"]))
            (Files.AccessError.system .nameTooLong (joinAll "out" (parts ++ ["Shape.java"]))).message),
              disk')) ∧
      PlainPaths {} (single "Shape" "trees.red") ∧
        (∀ name, Validation.Defect.duplicateName name ∉ Validation.defects (single "Shape" "trees.red")) ∧
        ∃ disk', (Files.writeBelowWithin (some 1) "out"
            (placedUnits {} "out" (single "Shape" "trees.red"))).run.run emptyOut =
          (.error .tooNested, disk') := by
  intro pointed long parts
  have hpoint : PlainPaths pointed (single ".") := plainPaths_single (by decide) (by decide) rfl nofun
  obtain ⟨hname, -, hlongSize⟩ := letters_plain (rfl : long = _)
  have hlong : PlainPaths {} (single long) := plainPaths_single (by decide) hname rfl nofun
  have hsize : longestName < (long ++ ".java").utf8ByteSize := by
    rw [String.utf8ByteSize_append, hlongSize]
    decide
  have hparts {part : String} (hmem : part ∈ parts) :
      (part ≠ "" ∧ IsPlain part) ∧ '.' ∉ part.toList ∧ part.utf8ByteSize = 226 :=
    letters_plain (List.eq_of_mem_replicate hmem)
  have hfar : segments (".".intercalate parts) = parts :=
    segments_intercalate (List.cons_ne_nil _ _) fun part hmem => ⟨(hparts hmem).1.1, (hparts hmem).2.1⟩
  have hdeep : PlainPaths {} (single "Shape" (".".intercalate parts)) :=
    plainPaths_single (by decide) (by decide) hfar fun part hmem => (hparts hmem).1
  have hred : PlainPaths {} (single "Shape" "trees.red") :=
    plainPaths_single (by decide) (by decide) segments_red (by decide)
  refine ⟨fun _ => rfl, node?_emptyOut, ⟨hpoint, unique_single _ _, ?_⟩, ⟨hlong, unique_single _ _, ?_⟩,
    ⟨hdeep, unique_single _ _, ?_⟩, hred, unique_single _ _, ?_⟩
  · exact hpoint.single_unwritten_top (.up (by decide) (by decide +kernel))
  · exact hlong.single_unwritten_top (.long hsize)
  · have hshort : ∀ s ∈ parts, s.utf8ByteSize ≤ longestName := by
      intro s hs
      rw [(hparts hs).2.2]
      decide
    have hisPart : ∀ part ∈ parts ++ ["Shape.java"], IsPart part := by
      rw [List.forall_mem_append, List.forall_mem_singleton]
      exact ⟨fun part hmem => ⟨(hparts hmem).1.1, (hparts hmem).1.2.1⟩, by decide, by decide⟩
    have hsum : (parts.map fun part => part.utf8ByteSize + 1).sum = 4086 := by
      rw [List.map_replicate, List.sum_replicate_nat, (letters_plain rfl).2.2]
    have hdirectory : (joinAll "out" parts).utf8ByteSize ≤ longestPath := by
      rw [Path.size_joinAll not_endsWith_out (by decide) (List.forall_mem_append.mp hisPart).1, hsum]
      decide
    have hfarther : longestPath < (joinAll "out" (parts ++ ["Shape.java"])).utf8ByteSize := by
      rw [Path.size_joinAll not_endsWith_out (by decide) hisPart, List.map_append, List.sum_append_nat, hsum]
      decide
    exact hdeep.single_unwritten hfar hshort hdirectory (.far hfarther)
  · have hshort : ∀ s ∈ segments "trees.red", s.utf8ByteSize ≤ longestName := by
      rw [segments_red]
      decide
    have hmore : 1 < (segments "trees.red").length := by
      rw [segments_red]
      decide
    exact hred.unwritten_nested classifiers_single hshort (fun _ => rfl) node?_emptyOut (by decide) hmore

end ClassAtlas.Java
