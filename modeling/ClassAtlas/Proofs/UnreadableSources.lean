import ClassAtlas.Proofs.ThinnedDisks

/-! # Scans of trees with files that cannot be read

A file that cannot be read is passed over with an issue of its own, and the types of the others are what
each gives by itself. So the types are those of a scan of the tree without the files that were passed
over, if that tree is still found and no other path led to one of them. -/

namespace ClassAtlas.Files

open Document (mapM_eq_ok)
open ClassAtlas.Path (IsPart joinAll)

/-! ## Single files -/

section Examined

variable {d : Disk} {s : Selection} {r : Reading} {path q : String} {records : List Java.TypeRecord}

theorem examine_of_extractFile (h : extractFile d r q = .ok records) :
    examine d r q = .ok (.extracted records) := by
  unfold extractFile at h
  unfold examine
  rcases htext : sourceText d r q with e | e | text <;> rw [htext] at h
  · cases h
  · cases h
  · cases h
    rfl

theorem examine_of_unreadable {e : SystemError} {at' : String} (hname : '\x00' ∉ r.encoding.toList)
    (h : d.read q = .error (.system e at')) :
    examine d r q = .ok (.passedOver ⟨q, (AccessError.system e q).message⟩) := by
  unfold examine sourceText
  rw [if_neg (by simpa using hname), h]
  rfl

/-- What can be read and decoded gives types. -/
theorem extractFile_of_read {decode : Decoder} {content : Content} {cs : List Char}
    (hname : '\x00' ∉ r.encoding.toList) (hknown : r.codecs r.encoding = some decode)
    (hread : d.read q = .ok content) (hcs : decode content.toBytes = .ok cs) :
    extractFile d r q = .ok (recordsOf q (String.ofList (unixLines cs)) r.namespaceHint) := by
  unfold extractFile sourceText Reading.decoded
  rw [if_neg (by simpa using hname), hread, hknown]
  dsimp only
  rw [hcs]
  rfl

theorem recordsOf_eq_nil {text hint : String} : recordsOf q text hint = [] ↔ Java.extract text hint = [] :=
  List.map_eq_nil_iff

theorem extractFile_congr {d' : Disk} (h : d'.read q = d.read q) :
    extractFile d' r q = extractFile d r q := by
  unfold extractFile sourceText
  rw [h]

/-- The scan of a directory whose files come to these outcomes. -/
theorem scan_eq_ok {outcome : String → Outcome} (hdir : d.isDirectory path = true)
    (h : ∀ q ∈ collect d s path, examine d r q = .ok (outcome q)) :
    scan d s r path = .ok (Scan.ofOutcomes path ((collect d s path).map outcome)) := by
  have hfile : d.isFile path = false := by
    obtain ⟨entries, hnode⟩ := hasDirectory_of_isDirectory hdir
    rw [Disk.isFile, hnode]
  have hall : (collect d s path).mapM (examine d r) = .ok ((collect d s path).map outcome) :=
    mapM_eq_ok.mpr (List.forall₂_map_right_iff.mpr (List.forall₂_same.mpr h))
  rw [scan, filesToScan, hfile, hdir]
  simp only [Bool.false_eq_true, if_false, if_true]
  show (collect d s path).mapM (examine d r) >>= _ = _
  rw [hall]
  rfl

end Examined

/-! ## All files of a scan -/

/-- Of the sources below a path those in a list cannot be read, and each other gives these types. -/
structure Splits (d : Disk) (s : Selection) (r : Reading) (path : String) (unreadable : List String)
    (extracted : String → List Java.TypeRecord) : Prop where
  name : '\x00' ∉ r.encoding.toList
  sources : ∀ p ∈ unreadable, p ∈ collect d s path
  fails : ∀ p ∈ unreadable, ∃ e at', d.read p = .error (.system e at')
  gives : ∀ q ∈ collect d s path, q ∉ unreadable → extractFile d r q = .ok (extracted q)

section Splits

variable {d : Disk} {s : Selection} {r : Reading} {path : String} {unreadable : List String}
  {extracted : String → List Java.TypeRecord}

theorem Splits.exists_outcome (h : Splits d s r path unreadable extracted) {q : String}
    (hq : q ∈ collect d s path) : ∃ o, examine d r q = .ok o ∧
      o.records = (if q ∈ unreadable then [] else extracted q) ∧
      o.issue?.map (·.filePath) = if q ∈ unreadable then some q else none := by
  by_cases hmem : q ∈ unreadable
  · obtain ⟨e, at', hread⟩ := h.fails q hmem
    exact ⟨_, examine_of_unreadable h.name hread, by rw [if_pos hmem]; rfl, by rw [if_pos hmem]; rfl⟩
  · exact ⟨_, examine_of_extractFile (h.gives q hq hmem), by rw [if_neg hmem]; rfl,
      by rw [if_neg hmem]; rfl⟩

/-- Every file of a scan counts once, as scanned or by its issue. -/
theorem filesScanned_add_issues (outcomes : List Outcome) :
    (Scan.ofOutcomes path outcomes).filesScanned + (Scan.ofOutcomes path outcomes).issues.length =
      outcomes.length := by
  simp only [Scan.ofOutcomes]
  rw [List.length_filterMap_eq_countP, List.length_eq_countP_add_countP fun o : Outcome => o.issue?.isNone]
  congr 2
  funext o
  cases o <;> rfl

/-- What the files give that are not passed over. -/
theorem flatMap_unless (files : List String) :
    files.flatMap (fun q => if q ∈ unreadable then [] else extracted q) =
      (files.filter (· ∉ unreadable)).flatMap extracted := by
  induction files with
  | nil => rfl
  | cons q files ih =>
    rw [List.flatMap_cons, ih]
    by_cases hmem : q ∈ unreadable <;> simp [hmem]

/-- A scan goes on behind every file that cannot be read. -/
theorem Splits.scan (h : Splits d s r path unreadable extracted) (hdir : d.isDirectory path = true) :
    ∃ result, Files.scan d s r path = .ok result ∧
      result.records = ((collect d s path).filter (· ∉ unreadable)).flatMap extracted ∧
      result.issues.map (·.filePath) = (collect d s path).filter (· ∈ unreadable) ∧
      result.filesScanned + result.issues.length = (collect d s path).length := by
  have hnonempty : Nonempty Outcome := ⟨.extracted []⟩
  choose! outcome hexamined hrecords hissues using fun q (hq : q ∈ collect d s path) => h.exists_outcome hq
  refine ⟨_, scan_eq_ok hdir hexamined, ?_, ?_, ?_⟩
  · show ((collect d s path).map outcome).flatMap (·.records) = _
    rw [List.flatMap_map, List.flatMap_congr hrecords, flatMap_unless]
  · show (((collect d s path).map outcome).filterMap (·.issue?)).map (·.filePath) = _
    rw [List.filterMap_map, List.map_filterMap, ← List.filterMap_eq_filter]
    refine List.filterMap_congr fun q hq => (hissues q hq).trans ?_
    by_cases hmem : q ∈ unreadable <;> simp [Option.guard, hmem]
  · rw [filesScanned_add_issues, List.length_map]

end Splits

/-- These are the sources below a path that the system does not let be read. -/
def AreUnreadable (d : Disk) (s : Selection) (path : String) (unreadable : List String) : Prop :=
  ∀ p, p ∈ unreadable ↔ p ∈ collect d s path ∧ ∃ e at', d.read p = .error (.system e at')

/-- An encoding is known, and it decodes all of some files that can be read. -/
structure Decodes (d : Disk) (r : Reading) (files : List String) (decode : Decoder) : Prop where
  name : '\x00' ∉ r.encoding.toList
  known : r.codecs r.encoding = some decode
  reads : ∀ q ∈ files, ∀ content, d.read q = .ok content → ∃ cs, decode content.toBytes = .ok cs

theorem encoding_utf8 : Encoding.ofName? "utf-8" = some .utf8 := by decide +kernel

/-- UTF-8 decodes everything. -/
theorem decodes_utf8 (d : Disk) (files : List String) : Decodes d {} files Encoding.utf8.decode := by
  refine ⟨by decide, ?_, fun _ _ _ _ => ⟨_, rfl⟩⟩
  show (Encoding.ofName? "utf-8").map Encoding.decode = _
  rw [encoding_utf8]
  rfl

/-- A scan finds the same types with some files and without them. -/
def SameTypesWithout (d : Disk) (s : Selection) (r : Reading) (path : String) (missing : List String) :
    Prop :=
  ∃ result result', scan d s r path = .ok result ∧ scan (d.without missing) s r path = .ok result' ∧
    result'.records = result.records

section Unreadable

variable {d : Disk} {s : Selection} {r : Reading} {path : String} {tree : Node} {root : List String}
  {links : Nat} {unreadable : List String}

theorem scan_nowhere (h : d.node? path = none) :
    scan d s r path = .error (.unreadable path "no such file or directory") := by
  rw [scan, filesToScan, Disk.isFile, Disk.isDirectory, h]
  rfl

/-- One source is unreadable if reading it fails, and no other does. -/
theorem areUnreadable_single {lost at' : String} {e : SystemError} (hlost : lost ∈ collect d s path)
    (hfails : d.read lost = .error (.system e at'))
    (hothers : ∀ q ∈ collect d s path, q ≠ lost → ∃ content, d.read q = .ok content) :
    AreUnreadable d s path [lost] := by
  intro p
  rw [List.mem_singleton]
  constructor
  · rintro rfl
    exact ⟨hlost, e, at', hfails⟩
  · rintro ⟨hp, e, at', hread⟩
    by_contra hne
    obtain ⟨content, hcontent⟩ := hothers p hp hne
    rw [hcontent] at hread
    cases hread

variable (h : Rooted d path tree root links) (hunreadable : AreUnreadable d s path unreadable)

include h hunreadable

theorem exists_content {q : String} (hq : q ∈ collect d s path) (hreadable : q ∉ unreadable) :
    ∃ content, d.read q = .ok content := by
  obtain ⟨place, hsource, rfl⟩ := (mem_collect h).mp hq
  obtain ⟨dirs, name, n, rfl, hst⟩ := h.standing hsource
  have hclean := Path.not_mem_joinAll h.clean (fun part hpart => (hst.names part hpart).clean) (by decide)
  exact (read_cases hclean).resolve_left fun hfails => hreadable ((hunreadable _).mpr ⟨hq, hfails⟩)

/-- In an encoding that decodes them, all but the unreadable files give types. -/
theorem exists_splits {decode : Decoder} (hdecodes : Decodes d r (collect d s path) decode) :
    ∃ extracted, Splits d s r path unreadable extracted := by
  have hgives : ∀ q ∈ collect d s path, q ∉ unreadable → ∃ records, extractFile d r q = .ok records := by
    intro q hq hreadable
    obtain ⟨content, hread⟩ := exists_content h hunreadable hq hreadable
    obtain ⟨cs, hcs⟩ := hdecodes.reads q hq content hread
    exact ⟨_, extractFile_of_read hdecodes.name hdecodes.known hread hcs⟩
  choose! extracted hextracted using hgives
  exact ⟨extracted, hdecodes.name, fun p hp => ((hunreadable p).mp hp).1,
    fun p hp => ((hunreadable p).mp hp).2, hextracted⟩

end Unreadable

/-! ## A file beside a link -/

/-- A directory with a source and a link that is named like one. -/
def besideLink (target : String) : List (String × Node) :=
  [("A.java", .file (.text "class A {}")), ("B.java", .link target)]

section Beside

variable {d : Disk} {path target : String} {root : List String} {links : Nat}

theorem entryName_src : EntryName "src" :=
  ⟨⟨by decide, by decide, by decide, by decide⟩, ⟨by decide, by decide⟩, by decide⟩

theorem entryName_link : EntryName "B.java" :=
  ⟨⟨by decide, by decide, by decide, by decide⟩, ⟨by decide, by decide⟩, by decide⟩

theorem join_src : Path.join "src" "A.java" = "src/A.java" ∧ Path.join "src" "B.java" = "src/B.java" := by
  decide +kernel

theorem named_besideLink : (Node.directory (besideLink target)).NamedBy EntryName := by
  refine .directory (by simp [besideLink]) ?_ ?_
  · simp only [besideLink, List.forall_mem_cons]
    exact ⟨⟨⟨by decide, by decide, by decide, by decide⟩, ⟨by decide, by decide⟩, by decide⟩, entryName_link,
      List.forall_mem_nil _⟩
  · simp only [besideLink, List.forall_mem_cons]
    exact ⟨.file _, .link _, List.forall_mem_nil _⟩

theorem at?_file :
    (Node.directory (besideLink target)).at? ["A.java"] = some (.file (.text "class A {}")) := by
  simp [besideLink, Node.at?]

theorem at?_link : (Node.directory (besideLink target)).at? ["B.java"] = some (.link target) := by
  have hne : ("B.java" == "A.java") = false := by decide
  simp [besideLink, Node.at?, List.lookup_cons, hne]

theorem rooted_besideLink (htop : d.top = .directory [("src", .directory (besideLink target))]) :
    Rooted d "src" (.directory (besideLink target)) ["src"] mostLinks :=
  rooted_top entryName_src (by rw [htop]; simp [Node.at?]) named_besideLink

/-- What is left without one of the two. -/
theorem top_without {p name : String} {n : Node}
    (htop : d.top = .directory [("src", .directory (besideLink target))])
    (hp : locate d.top false p = .ok (.present ["src", name] n)) :
    (d.without [p]).top = .directory [("src", .directory ((besideLink target).filter (·.1 ≠ name)))] := by
  have hnames : d.names [p] = fun place => ["src", name] == place := by
    funext place
    simp [Disk.names, hp]
  rw [Disk.without, hnames, htop]
  simp only [Node.prune, Node.pruneAmong, besideLink, List.filter_cons, List.filter_nil]
  have hcomm (other : String) : name = other ↔ other = name := eq_comm
  by_cases hA : "A.java" = name <;> by_cases hB : "B.java" = name <;> simp [hcomm, hA, hB]

theorem rooted_without {p name : String} {n : Node}
    (htop : d.top = .directory [("src", .directory (besideLink target))])
    (hp : locate d.top false p = .ok (.present ["src", name] n)) :
    Rooted (d.without [p]) "src" (.directory ((besideLink target).filter (·.1 ≠ name))) ["src"]
      mostLinks := by
  refine rooted_top entryName_src (by rw [top_without htop hp]; rfl) ?_
  obtain - | - | ⟨distinct, names, below⟩ := @named_besideLink target
  exact .directory (distinct.sublist (List.filter_sublist.map _))
    (fun e he => names e (List.mem_of_mem_filter he)) fun e he => below e (List.mem_of_mem_filter he)

/-- Where a link to a single name leads. -/
theorem Rooted.locate_target {tree : Node} {name : String} (h : Rooted d path tree root links)
    (hlink : tree.at? [name] = some (.link target)) (hpart : IsPart target) :
    locate d.top true (Path.join path name) =
      (behind d.top true links root [target]).mapError fun e => .system e (Path.join path name) := by
  have hst : Standing d.top root [] name (.link target) := h.standing_of_at? [] hlink nofun
  have hwalk := h.walked true ([] ++ [name]) (by simp) hst.names
  rw [hst.walk] at hwalk
  simp only [linkStart, hpart.relative, Path.splitOn_piece Path.separates_slash hpart.plain, if_true,
    Bool.false_eq_true, if_false, List.append_nil] at hwalk
  exact hwalk

section Entries

variable (h : Rooted d path (.directory (besideLink target)) root links)

include h

theorem standing_file : Standing d.top root [] "A.java" (.file (.text "class A {}")) :=
  h.standing_of_at? [] at?_file nofun

theorem standing_link : Standing d.top root [] "B.java" (.link target) :=
  h.standing_of_at? [] at?_link nofun

theorem locate_file_entry :
    locate d.top false (Path.join path "A.java") =
      .ok (.present (root ++ ["A.java"]) (.file (.text "class A {}"))) :=
  h.locate_named (standing_file h)

theorem locate_link_entry :
    locate d.top false (Path.join path "B.java") = .ok (.present (root ++ ["B.java"]) (.link target)) :=
  h.locate_named (standing_link h)

theorem collect_besideLink (hleads : d.isDirectory (Path.join path "B.java") = false) :
    collect d {} path = [Path.join path "A.java", Path.join path "B.java"] := by
  have hsource : isSourceFile [".java"] "A.java" = true ∧ isSourceFile [".java"] "B.java" = true := by
    decide +kernel
  have hown : ownSources {} d.isDirectory path (besideLink target) = ["A.java", "B.java"] := by
    simp [ownSources, besideLink, isLoose, hsource, hleads]
  have hsubs : (besideLink target).filterMap (subdirectory? {}) = [] := rfl
  have hsorted : ["A.java", "B.java"].mergeSort byName = ["A.java", "B.java"] := by
    simp [List.mergeSort, byName]
  rw [collect_eq h.node?, sourcesBelow_directory, hown, hsubs, hsorted, List.mergeSort_nil]
  rfl

section Short

variable (hshort : (Path.join path "A.java").utf8ByteSize ≤ longestPath)
  (hreadable : d.unreadable (Path.join path "A.java") = none)
  (hleads : d.isDirectory (Path.join path "B.java") = false)

include hshort hreadable

theorem read_file : d.read (Path.join path "A.java") = .ok (.text "class A {}") :=
  read_eq_ok.mpr ⟨hreadable, hshort, _, h.locate_file (standing_file h)⟩

include hleads

theorem areUnreadable_link {e : SystemError} {at' : String}
    (hlink : d.read (Path.join path "B.java") = .error (.system e at')) :
    AreUnreadable d {} path [Path.join path "B.java"] := by
  have hcollect := collect_besideLink h hleads
  refine areUnreadable_single (by simp [hcollect]) hlink fun q hq hne => ?_
  rw [hcollect, List.mem_pair] at hq
  exact ⟨_, hq.resolve_right hne ▸ read_file h hshort hreadable⟩

/-- A file that cannot be decoded ends the scan. -/
theorem scan_undecoded {r : Reading} {e : SourceError} (hname : '\x00' ∉ r.encoding.toList)
    (hdecoded : r.decoded (Content.text "class A {}").toBytes = .error e) : scan d {} r path = .error e := by
  have hexamine : examine d r (Path.join path "A.java") = .error e := by
    unfold examine sourceText
    rw [if_neg (by simpa using hname), read_file h hshort hreadable]
    dsimp only
    rw [hdecoded]
    rfl
  rw [scan, filesToScan, Disk.isFile, Disk.isDirectory, h.node?]
  show (collect d {} path).mapM (examine d r) >>= _ = _
  rw [collect_besideLink h hleads, List.mapM_cons, hexamine]
  rfl

end Short

end Entries

/-- Without the link, no path goes through it. -/
theorem node?_through {p : String} {k : Nat}
    (htop : d.top = .directory [("src", .directory (besideLink target))])
    (hp : locate d.top false p = .ok (.present ["src", "B.java"] (.link target))) :
    (d.without [p]).node? (joinAll "src" (List.replicate (k + 1 + 1) "B.java")) = none := by
  have h := rooted_without htop hp
  have hthere : (d.without [p]).top.at? (["src"] ++ ["B.java"]) = none := by
    rw [h.at?]
    rfl
  refine Option.eq_none_iff_forall_ne_some.mpr fun n hn => ?_
  obtain ⟨goal, hlocate⟩ := exists_locate hn
  rw [h.walked true _ (by simp) (by simp [entryName_link]), List.replicate_succ, walkLinks_eq,
    walk_ordinary entryName_link.ordinary, hthere] at hlocate
  cases hlocate

/-- A link to a directory is followed only so often on one path. So it cannot be read where the path of the
scan has followed it that often, and without it this path leads nowhere. -/
theorem undone_by_loop (htop : d.top = .directory [("src", .directory (besideLink "."))])
    (hreadable : d.unreadable = fun _ => none) : let path := joinAll "src" (List.replicate mostLinks "B.java")
    d.node? path = some (.directory (besideLink ".")) ∧
      AreUnreadable d {} path [Path.join path "B.java"] ∧
      ¬ SameTypesWithout d {} {} path [Path.join path "B.java"] := by
  intro path
  have hparts : ∀ part ∈ List.replicate mostLinks "B.java", IsPart part := fun part hpart =>
    List.eq_of_mem_replicate hpart ▸ entryName_link.part
  have hsize : path.utf8ByteSize = 283 := by
    rw [Path.size_joinAll (by decide +kernel) (by decide) hparts]
    decide
  have hjoin {name : String} (hname : IsPart name) (hlength : name.utf8ByteSize = 6) :
      (Path.join path name).utf8ByteSize ≤ longestPath := by
    have hadded : (Path.join path name).utf8ByteSize ≤ path.utf8ByteSize + (name.utf8ByteSize + 1) :=
      Path.size_join_le hname
    have hmost : longestPath = 4095 := rfl
    omega
  have h : Rooted d path (.directory (besideLink ".")) ["src"] 0 := by
    have hsrc : Rooted d "src" _ ["src"] (0 + mostLinks) := rooted_besideLink htop
    exact hsrc.loops entryName_link (by rw [hsize]; decide) at?_link
  have hlocate : locate d.top true (Path.join path "B.java") =
      .error (.system .tooManyLinks (Path.join path "B.java")) :=
    h.locate_target at?_link ⟨by decide, by decide⟩
  have hlink : d.read (Path.join path "B.java") =
      .error (.system .tooManyLinks (Path.join path "B.java")) := by
    unfold Disk.read
    rw [admitted_short (hjoin entryName_link.part (by decide)), hlocate, hreadable]
  have hleads : d.isDirectory (Path.join path "B.java") = false :=
    isDirectory_eq_false fun _ _ => by rw [hlocate]; nofun
  have hfile : (Path.join path "A.java").utf8ByteSize ≤ longestPath :=
    hjoin ⟨by decide, by decide⟩ (by decide)
  refine ⟨h.node?, areUnreadable_link h hfile (by rw [hreadable]) hleads hlink, ?_⟩
  · rintro ⟨-, result', -, hscan', -⟩
    have hnowhere : (d.without [Path.join path "B.java"]).node? path = none :=
      node?_through htop (locate_link_entry h)
    rw [scan_nowhere hnowhere] at hscan'
    cases hscan'

section Dangling

variable (htop : d.top = .directory [("src", .directory (besideLink "missing"))])

include htop

theorem locate_dangling : locate d.top true "src/B.java" = .ok (.free ["src", "missing"]) := by
  have hlocate := (rooted_besideLink htop).locate_target at?_link ⟨by decide, by decide⟩
  rw [join_src.2, htop] at hlocate
  rw [htop, hlocate]
  rfl

theorem isDirectory_dangling : d.isDirectory (Path.join "src" "B.java") = false := by
  rw [join_src.2]
  exact isDirectory_eq_false fun _ _ => by rw [locate_dangling htop]; nofun

end Dangling

section Sharing

variable (htop : d.top = .directory [("src", .directory (besideLink "A.java"))])

include htop

theorem locate_sharing : locate d.top true "src/B.java" =
    .ok (.present ["src", "A.java"] (.file (.text "class A {}"))) := by
  have hlocate := (rooted_besideLink htop).locate_target at?_link ⟨by decide, by decide⟩
  rw [join_src.2, htop] at hlocate
  rw [htop, hlocate]
  rfl

theorem collect_sharing : collect d {} "src" = ["src/A.java", "src/B.java"] := by
  have hleads : d.isDirectory (Path.join "src" "B.java") = false := by
    rw [join_src.2]
    exact isDirectory_eq_false fun _ _ => by rw [locate_sharing htop]; nofun
  rw [collect_besideLink (rooted_besideLink htop) hleads, join_src.1, join_src.2]

variable (hB : d.unreadable "src/B.java" = none)

include hB

theorem read_sharing : d.read "src/B.java" = .ok (.text "class A {}") :=
  read_eq_ok.mpr ⟨hB, by decide, _, locate_sharing htop⟩

theorem unreadable_sharing {e : SystemError} (hA : d.unreadable "src/A.java" = some e) :
    AreUnreadable d {} "src" ["src/A.java"] := by
  have hfile : d.read "src/A.java" = .error (.system e "src/A.java") := by
    unfold Disk.read
    rw [hA]
  refine areUnreadable_single (by simp [collect_sharing htop]) hfile fun q hq hne => ?_
  rw [collect_sharing htop, List.mem_pair] at hq
  exact ⟨_, hq.resolve_left hne ▸ read_sharing htop hB⟩

/-- With the file, the link gives what the file holds. -/
theorem scan_sharing (hunreadable : AreUnreadable d {} "src" ["src/A.java"]) :
    ∃ result, scan d {} {} "src" = .ok result ∧
      result.records = recordsOf "src/B.java" "class A {}" "" := by
  have h := rooted_besideLink htop
  have hdecodes := decodes_utf8 d (collect d {} "src")
  obtain ⟨extracted, hsplits⟩ := exists_splits h hunreadable hdecodes
  obtain ⟨result, hscan, hrecords, -⟩ := hsplits.scan (by rw [Disk.isDirectory, h.node?])
  refine ⟨result, hscan, ?_⟩
  have hgives := hsplits.gives "src/B.java" (by simp [collect_sharing htop]) (by decide)
  have htext : String.ofList (unixLines (utf8 (Content.text "class A {}").toBytes)) = "class A {}" := by
    decide +kernel
  rw [extractFile_of_read hdecodes.name hdecodes.known (read_sharing htop hB) rfl, htext,
    Except.ok.injEq] at hgives
  rw [hrecords, collect_sharing htop]
  simpa using hgives.symm

/-- Without the file, the link leads nowhere. -/
theorem scan_alone : ∃ result, scan (d.without ["src/A.java"]) {} {} "src" = .ok result ∧
    result.records = [] := by
  have h := rooted_besideLink htop
  have hnamed := locate_file_entry h
  rw [join_src.1] at hnamed
  have h' := rooted_without htop hnamed
  have hsources : ∀ p ∈ ["src/A.java"], p ∈ collect d {} "src" := by simp [collect_sharing htop]
  have hcollect : collect (d.without ["src/A.java"]) {} "src" = ["src/B.java"] := by
    rw [collect_without h hsources h' (by decide), collect_sharing htop]
    decide
  have hlost : (d.without ["src/A.java"]).read "src/B.java" = .error (.system .missing "src/B.java") := by
    have hleft : (Node.directory ((besideLink "A.java").filter (·.1 ≠ "A.java"))).at? ["B.java"] =
        some (.link "A.java") := rfl
    have hlocate := h'.locate_target hleft ⟨by decide, by decide⟩
    rw [join_src.2, top_without htop hnamed] at hlocate
    have hB' : (d.without ["src/A.java"]).unreadable "src/B.java" = none := hB
    unfold Disk.read
    rw [admitted_short (by decide), hB', top_without htop hnamed, hlocate]
    rfl
  have hsplits : Splits (d.without ["src/A.java"]) {} {} "src" ["src/B.java"] fun _ => [] := by
    rw [← hcollect]
    refine ⟨by decide, fun _ => id, fun p hp => ?_, fun q hq hreadable => absurd hq hreadable⟩
    rw [hcollect] at hp
    exact ⟨_, _, List.mem_singleton.mp hp ▸ hlost⟩
  obtain ⟨result, hscan, hrecords, -⟩ := hsplits.scan (by rw [Disk.isDirectory, h'.node?])
  refine ⟨result, hscan, ?_⟩
  rw [hrecords, hcollect]
  rfl

/-- Where a link leads to a file that only its own path cannot be read by, the link is read with the file
and not without it. -/
theorem undone_by_sharing {e : SystemError} (hA : d.unreadable "src/A.java" = some e) :
    d.node? "src" = some (.directory (besideLink "A.java")) ∧ AreUnreadable d {} "src" ["src/A.java"] ∧
      ¬ SameTypesWithout d {} {} "src" ["src/A.java"] := by
  have hunreadable := unreadable_sharing htop hB hA
  refine ⟨(rooted_besideLink htop).node?, hunreadable, ?_⟩
  rintro ⟨result, result', hscan, hscan', hsame⟩
  obtain ⟨_, hsharing, hrecords⟩ := scan_sharing htop hB hunreadable
  obtain ⟨_, halone, hrecords'⟩ := scan_alone htop hB
  obtain rfl := Except.ok.inj (hscan.symm.trans hsharing)
  obtain rfl := Except.ok.inj (hscan'.symm.trans halone)
  have hdeclares : (Java.extract "class A {}" "").isEmpty = false := by decide +kernel
  rw [hrecords', hrecords, eq_comm, recordsOf_eq_nil] at hsame
  rw [hsame] at hdeclares
  cases hdeclares

end Sharing

end Beside

/-! ## Scans -/

end ClassAtlas.Files
