import ClassAtlas.Files.Path
import Mathlib.Algebra.GroupWithZero.Nat
import Mathlib.Data.List.DropRight
import Mathlib.Data.String.Basic

/-! # The names on paths

A text split at a separator falls into pieces that are without it, and putting it between them again
makes the text. So a path has the names of its directory and then its own, joining puts new names
behind the old ones, and slashes at the end of a path add nothing. -/

namespace ClassAtlas.Path

/-! ## Splitting at a separator -/

/-- A text of one character that takes one byte. -/
structure Separates (sep : String) (c : Char) : Prop where
  toList : sep.toList = [c]
  size : c.utf8Size = 1
  get : String.Pos.Raw.get sep 0 = c
  next : String.Pos.Raw.next sep 0 = ⟨1⟩
  atEnd : String.Pos.Raw.atEnd sep ⟨1⟩ = true

theorem separates_slash : Separates "/" '/' := by
  constructor <;> decide

theorem separates_point : Separates "." '.' := by
  constructor <;> decide

section Splitting

variable {sep s piece : String} {c : Char} {pieces : List String}

theorem unoffsetBy_next {i : String.Pos.Raw} (h : i.get s = c) (hsize : c.utf8Size = 1) :
    (i.next s).unoffsetBy ⟨1⟩ = i := by
  rw [String.Pos.Raw.next, h]
  refine String.Pos.Raw.ext ?_
  show i.byteIdx + c.utf8Size - 1 = i.byteIdx
  rw [hsize, Nat.add_sub_cancel]

/-- Splitting at a separator of one character is splitting where that character is. -/
theorem splitOnAux_eq (h : Separates sep c) (s : String) (b i : String.Pos.Raw) (parts : List String) :
    s.splitOnAux sep b i 0 parts = s.splitAux (· == c) b i parts := by
  induction b, i, parts using String.splitAux.induct s (· == c) with
  | case1 b i parts hdone => rw [String.splitOnAux, String.splitAux, if_pos hdone, dif_pos hdone]
  | case2 b i parts hmore _ hhit _ ih =>
    rw [String.splitOnAux, String.splitAux, if_neg hmore, dif_neg hmore, h.get, if_pos hhit,
      if_pos hhit, h.next, if_pos h.atEnd, unoffsetBy_next (beq_iff_eq.mp hhit) h.size]
    exact ih
  | case3 b i parts hmore _ hother ih =>
    rw [String.splitOnAux, String.splitAux, if_neg hmore, dif_neg hmore, h.get, if_neg hother,
      if_neg hother]
    exact ih

theorem splitOn_eq (h : Separates sep c) (s : String) :
    s.splitOn sep = (s.toList.splitOn c).map String.ofList := by
  have hlist : s.splitToList (· == c) = (s.toList.splitOn c).map String.ofList :=
    String.splitToList_of_valid s _
  have hsep : (sep == "") = false := by
    rw [beq_eq_false_iff_ne, ne_eq, ← String.toList_inj, h.toList]
    exact List.cons_ne_nil _ _
  rw [← hlist, String.splitOn, hsep, if_neg Bool.false_ne_true]
  exact splitOnAux_eq h s 0 0 []

theorem splitOn_intercalate (h : Separates sep c) (hne : pieces ≠ [])
    (hpieces : ∀ piece ∈ pieces, c ∉ piece.toList) : (sep.intercalate pieces).splitOn sep = pieces := by
  have hlists : ([c].intercalate (pieces.map String.toList)).splitOn c = pieces.map String.toList := by
    refine List.splitOn_intercalate c (fun l hl => ?_) fun hnil => hne (List.map_eq_nil_iff.mp hnil)
    obtain ⟨piece, hpiece, rfl⟩ := List.mem_map.mp hl
    exact hpieces piece hpiece
  rw [splitOn_eq h, String.toList_intercalate, h.toList, hlists, List.map_map]
  exact (List.map_congr_left fun s _ => String.ofList_toList).trans (List.map_id pieces)

theorem intercalate_splitOn (h : Separates sep c) (s : String) : sep.intercalate (s.splitOn sep) = s := by
  have hlists : ((s.toList.splitOn c).map String.ofList).map String.toList = s.toList.splitOn c := by
    rw [List.map_map]
    exact (List.map_congr_left fun l _ => String.toList_ofList).trans (List.map_id _)
  rw [← String.toList_inj, String.toList_intercalate, splitOn_eq h, hlists, h.toList,
    List.intercalate_splitOn]

theorem splitOn_ne_nil (h : Separates sep c) (s : String) : s.splitOn sep ≠ [] := by
  rw [splitOn_eq h]
  exact mt List.map_eq_nil_iff.mp (List.splitOn_ne_nil c _)

theorem splitOn_piece (h : Separates sep c) (hs : c ∉ s.toList) : s.splitOn sep = [s] := by
  rw [splitOn_eq h, List.splitOn_eq_singleton hs, List.map_singleton, String.ofList_toList]

theorem splitOn_append (h : Separates sep c) (a b : String) :
    (a ++ sep ++ b).splitOn sep = a.splitOn sep ++ b.splitOn sep := by
  simp only [splitOn_eq h, String.toList_append, h.toList, List.append_assoc, List.singleton_append,
    List.splitOn_append_cons_self, List.map_append]

theorem not_mem_of_mem_splitOn {cs piece : List Char} (h : piece ∈ cs.splitOn c) : c ∉ piece := by
  induction cs generalizing piece with
  | nil =>
    rw [List.splitOn_nil, List.mem_singleton] at h
    exact h ▸ List.not_mem_nil
  | cons first cs ih =>
    rw [List.splitOn_cons_eq_if_modifyHead] at h
    split at h
    · rcases List.mem_cons.mp h with rfl | hrest
      · exact List.not_mem_nil
      · exact ih hrest
    · rename_i hother
      obtain ⟨head, rest, heq⟩ := List.exists_cons_of_ne_nil (List.splitOn_ne_nil c cs)
      rw [heq] at h ih
      rcases List.mem_cons.mp h with rfl | hrest
      · rw [List.mem_cons, not_or]
        exact ⟨fun hc => hother (beq_iff_eq.mpr hc.symm), ih List.mem_cons_self⟩
      · exact ih (List.mem_cons_of_mem _ hrest)

theorem length_splitOn_le {cs : List Char} : (cs.splitOn c).length ≤ cs.length + 1 := by
  induction cs with
  | nil => simp
  | cons first cs ih =>
    rw [List.splitOn_cons_eq_if_modifyHead]
    split
    · simpa using ih
    · rw [List.length_modifyHead, List.length_cons]
      omega

theorem pieces_plain (h : Separates sep c) (hpiece : piece ∈ s.splitOn sep) : c ∉ piece.toList := by
  rw [splitOn_eq h] at hpiece
  obtain ⟨cs, hcs, rfl⟩ := List.mem_map.mp hpiece
  rw [String.toList_ofList]
  exact not_mem_of_mem_splitOn hcs

/-- What comes before the last of several pieces, and that piece. -/
theorem exists_of_splitOn (h : Separates sep c) (hs : s.splitOn sep = pieces ++ [piece])
    (hne : pieces ≠ []) : ∃ start, s = start ++ sep ++ piece ∧ start.splitOn sep = pieces := by
  refine ⟨sep.intercalate pieces, ?_, splitOn_intercalate h hne fun p hp => ?_⟩
  · have hjoin := String.intercalate_append_of_ne_nil (s := sep) hne (List.cons_ne_nil piece [])
    rw [← hs, intercalate_splitOn h] at hjoin
    simpa using hjoin
  · exact pieces_plain h (hs ▸ List.mem_append_left [piece] hp)

end Splitting

/-! ## Directories and base names -/

/-- Nothing, or something with a slash at its end. -/
def EndsDirectory (cs : List Char) : Prop := cs = [] ∨ ∃ more, cs = more ++ ['/']

section Directories

variable {path start name part : String}

theorem baseChars_append {before cs : List Char} (h : EndsDirectory before) (hcs : '/' ∉ cs) :
    baseChars (before ++ cs) = cs := by
  have hall : ∀ c ∈ cs.reverse, (c != '/') = true := fun c hc => by
    simpa using ne_of_mem_of_not_mem (List.mem_reverse.mp hc) hcs
  have hbefore : before.reverse.takeWhile (· != '/') = [] := by
    rcases h with rfl | ⟨more, rfl⟩
    · rfl
    · simp
  rw [baseChars, List.reverse_append, List.takeWhile_append_of_pos hall, hbefore, List.append_nil,
    List.reverse_reverse]

theorem not_absolute (h : part.toList.head? ≠ some '/') : part.startsWith "/" = false := by
  rw [String.startsWith_string_eq_false_iff]
  rintro ⟨more, heq⟩
  exact h (by rw [← heq]; rfl)

theorem relative_of_plain (h : '/' ∉ part.toList) : part.startsWith "/" = false :=
  not_absolute fun hhead => h (List.mem_of_mem_head? hhead)

theorem endsWith_slash : path.endsWith "/" = true ↔ ∃ more, path.toList = more ++ ['/'] := by
  have hsuffix : path.endsWith "/" = true ↔ ['/'] <:+ path.toList := by
    simpa using @String.Slice.endsWith_string_iff "/" path.toSlice
  rw [hsuffix]
  exact ⟨fun ⟨more, h⟩ => ⟨more, h.symm⟩, fun ⟨more, h⟩ => ⟨more, h.symm⟩⟩

theorem toList_join (h : part.toList.head? ≠ some '/') :
    ∃ before, EndsDirectory before ∧ (join path part).toList = before ++ part.toList := by
  rw [join, not_absolute h, if_neg Bool.false_ne_true]
  split
  · rename_i hend
    refine ⟨path.toList, ?_, String.toList_append⟩
    rcases Bool.or_eq_true_iff.mp hend with hempty | hslash
    · exact .inl (by simpa using hempty)
    · exact .inr (endsWith_slash.mp hslash)
  · exact ⟨path.toList ++ ['/'], .inr ⟨_, rfl⟩, by simp⟩

/-- Which names on a path count as its own. -/
def counts (name : String) : Bool := !name.isEmpty && name != "."

/-- A name that stands for the directory in which it is found. -/
def IsIdle (name : String) : Prop := name = "" ∨ name = "."

theorem isIdle_iff : (name.isEmpty || name == ".") = true ↔ IsIdle name := by
  simp [IsIdle]

theorem counts_eq_false_iff : counts name = false ↔ IsIdle name := by
  rw [← isIdle_iff, counts, bne, ← Bool.not_or, Bool.not_eq_false']

theorem counts_eq_true (h : ¬ IsIdle name) : counts name = true := by
  rwa [← Bool.not_eq_false, counts_eq_false_iff]

theorem names_eq (path : String) : names path = (path.splitOn "/").filter counts := rfl

theorem names_append (path part : String) : names (path ++ "/" ++ part) = names path ++ names part := by
  rw [names_eq, splitOn_append separates_slash, List.filter_append]
  rfl

@[simp] theorem names_empty : names "" = [] := by
  rw [names_eq, splitOn_piece separates_slash (by simp)]
  rfl

theorem names_slash (path : String) : names (path ++ "/") = names path := by
  have hempty : path ++ "/" = path ++ "/" ++ "" := String.append_empty.symm
  rw [hempty, names_append, names_empty, List.append_nil]

/-- A path without the slashes at its end. -/
def trimmed (path : String) : String := String.ofList (path.toList.rdropWhile (· == '/'))

theorem trimmed_eq (h : path.endsWith "/" = false) : trimmed path = path := by
  rcases List.eq_nil_or_concat' path.toList with hnil | ⟨cs, c, hcs⟩
  · rw [String.toList_eq_nil_iff.mp hnil]
    rfl
  · have hc : ¬ (c == '/') = true := fun hc => by
      rw [beq_iff_eq.mp hc] at hcs
      exact Bool.false_ne_true (h.symm.trans (endsWith_slash.mpr ⟨cs, hcs⟩))
    rw [trimmed, hcs, List.rdropWhile_concat, if_neg hc, ← hcs, String.ofList_toList]

theorem names_trimmed (path : String) : names (trimmed path) = names path := by
  obtain ⟨cs, rfl⟩ : ∃ cs, path = String.ofList cs := ⟨path.toList, String.ofList_toList.symm⟩
  rw [trimmed, String.toList_ofList]
  induction cs using List.reverseRecOn with
  | nil => rfl
  | append_singleton cs c ih =>
    rw [List.rdropWhile_concat]
    split
    · rename_i hslash
      have hlast : String.ofList (cs ++ [c]) = String.ofList cs ++ "/" := by
        simp [beq_iff_eq.mp hslash]
      rw [ih, hlast, names_slash]
    · rfl

theorem directory_append (hname : '/' ∉ name.toList) : directory (start ++ "/" ++ name) =
    if (trimmed start).isEmpty then start ++ "/" else trimmed start := by
  have hall : ∀ c ∈ name.toList.reverse, (c != '/') = true := fun c hc => by
    simpa using ne_of_mem_of_not_mem (List.mem_reverse.mp hc) hname
  have hhead : ((start ++ "/" ++ name).toList.reverse.dropWhile (· != '/')).reverse =
      start.toList ++ ['/'] := by
    simp only [String.toList_append, List.reverse_append]
    rw [List.dropWhile_append_of_pos hall]
    simp
  have htrimmed : ((start.toList ++ ['/']).reverse.dropWhile (· == '/')).reverse =
      start.toList.rdropWhile (· == '/') := by
    simp [List.rdropWhile]
  rw [directory, hhead, htrimmed, trimmed]
  simp only [List.isEmpty_iff, String.isEmpty_iff, String.ofList_eq_empty_iff]
  split <;> simp

theorem directory_piece (hname : '/' ∉ name.toList) : directory name = "" := by
  have hall : ∀ c ∈ name.toList.reverse, (c != '/') = true := fun c hc => by
    simpa using ne_of_mem_of_not_mem (List.mem_reverse.mp hc) hname
  have hhead : (name.toList.reverse.dropWhile (· != '/')).reverse = [] := by
    rw [List.reverse_eq_nil_iff, List.dropWhile_eq_nil_iff]
    exact hall
  rw [directory, hhead]
  rfl

theorem baseName_append (hname : '/' ∉ name.toList) : baseName (start ++ "/" ++ name) = name := by
  have hlist : (start ++ "/" ++ name).toList = start.toList ++ ['/'] ++ name.toList := by simp
  rw [baseName, hlist, baseChars_append (.inr ⟨_, rfl⟩) hname, String.ofList_toList]

theorem baseName_piece (hname : '/' ∉ name.toList) : baseName name = name := by
  have hbase := baseChars_append (.inl rfl) hname
  rw [List.nil_append] at hbase
  rw [baseName, hbase, String.ofList_toList]

/-- A path is one piece, or a piece behind a slash. -/
theorem piece_cases (path : String) :
    '/' ∉ path.toList ∨ ∃ start name, path = start ++ "/" ++ name ∧ '/' ∉ name.toList := by
  obtain ⟨pieces, name, hpieces⟩ := (List.eq_nil_or_concat' (path.splitOn "/")).resolve_left
    (splitOn_ne_nil separates_slash path)
  have hname : '/' ∉ name.toList := pieces_plain separates_slash (s := path) (by simp [hpieces])
  by_cases hne : pieces = []
  · left
    have hpath := intercalate_splitOn separates_slash path
    rw [hpieces, hne] at hpath
    exact hpath ▸ hname
  · obtain ⟨start, hpath, -⟩ := exists_of_splitOn separates_slash hpieces hne
    exact .inr ⟨start, name, hpath, hname⟩

/-- A path has the names of its directory, and then its own. -/
theorem names_directory (path : String) :
    names path = names (directory path) ++ names (baseName path) := by
  rcases piece_cases path with hpath | ⟨start, name, rfl, hname⟩
  · rw [directory_piece hpath, baseName_piece hpath, names_empty, List.nil_append]
  · rw [directory_append hname, baseName_append hname, names_append]
    split
    · rw [names_slash]
    · rw [names_trimmed]

/-- Slashes at the end aside, a path parts into names and names. -/
theorem names_parting (path : String) :
    names path = names (parting path).1 ++ names (parting path).2 := by
  rw [parting]
  split
  · rename_i hbase
    rw [names_directory path, String.isEmpty_iff.mp hbase, names_empty, List.append_nil]
    exact names_directory _
  · exact names_directory path

/-- A path is its directory, slashes, and its base name. -/
theorem exists_between (path : String) :
    ∃ between, path.toList = (directory path).toList ++ between ++ (baseName path).toList := by
  rcases piece_cases path with hpath | ⟨start, name, rfl, hname⟩
  · exact ⟨[], by rw [directory_piece hpath, baseName_piece hpath]; rfl⟩
  · rw [directory_append hname, baseName_append hname]
    split
    · exact ⟨[], by simp⟩
    · obtain ⟨slashes, hslashes⟩ := List.rdropWhile_prefix (· == '/') start.toList
      refine ⟨slashes ++ ['/'], ?_⟩
      rw [trimmed, String.toList_ofList, ← List.append_assoc, hslashes]
      simp

/-- So it is when it is parted, and then there may be slashes at its end. -/
theorem exists_between_parting (path : String) : ∃ between after,
    path.toList = (parting path).1.toList ++ between ++ (parting path).2.toList ++ after := by
  obtain ⟨between, hpath⟩ := exists_between path
  rw [parting]
  split
  · obtain ⟨between', hdirectory⟩ := exists_between (directory path)
    exact ⟨between', between ++ (baseName path).toList, by rw [← hdirectory, ← List.append_assoc, ← hpath]⟩
  · exact ⟨between, [], by rw [List.append_nil, ← hpath]⟩

theorem mem_directory {c : Char} (h : c ∈ (directory path).toList) : c ∈ path.toList := by
  obtain ⟨between, hpath⟩ := exists_between path
  simp [hpath, h]

theorem mem_parting {c : Char} (h : c ∈ (parting path).1.toList) : c ∈ path.toList := by
  obtain ⟨between, after, hpath⟩ := exists_between_parting path
  simp [hpath, h]

theorem size_le_of_toList {s : String} {rest : List Char} (h : path.toList = s.toList ++ rest) :
    s.utf8ByteSize ≤ path.utf8ByteSize := by
  have hpath : path = s ++ String.ofList rest := String.toList_inj.mp (by simp [h])
  rw [hpath, String.utf8ByteSize_append]
  exact Nat.le_add_right _ _

theorem size_trimmed_le : (trimmed path).utf8ByteSize ≤ path.utf8ByteSize := by
  obtain ⟨rest, hrest⟩ := List.rdropWhile_prefix (fun c => c == '/') path.toList
  exact size_le_of_toList (hrest.symm.trans (by rw [trimmed, String.toList_ofList]))

theorem size_directory_le : (directory path).utf8ByteSize ≤ path.utf8ByteSize := by
  obtain ⟨between, hpath⟩ := exists_between path
  exact size_le_of_toList (hpath.trans (List.append_assoc ..))

theorem size_parting_le : (parting path).1.utf8ByteSize ≤ path.utf8ByteSize := by
  obtain ⟨between, after, hpath⟩ := exists_between_parting path
  rw [List.append_assoc, List.append_assoc] at hpath
  exact size_le_of_toList hpath

/-- What a name is parted from is shorter. -/
theorem length_parting_lt (htail : (parting path).2 ≠ "") : (parting path).1.length < path.length := by
  obtain ⟨between, after, hpath⟩ := exists_between_parting path
  have hlength := congrArg List.length hpath
  have htail := List.length_pos_iff.mpr (mt String.toList_eq_nil_iff.mp htail)
  simp only [List.length_append, String.length_toList] at hlength htail
  omega

end Directories

/-! ## Paths below a root -/

/-- A text that is one name on a path. -/
structure IsPart (part : String) : Prop where
  nonempty : part ≠ ""
  plain : '/' ∉ part.toList

/-- A path that has the names of a root and then some more. Between the two there may be names that do
not count. -/
structure Below (root path : String) (q : List String) : Prop where
  nonempty : path ≠ ""
  pieces : ∃ before, before ≠ [] ∧ path.splitOn "/" = before ++ q ∧ before.filter counts = names root

section Below

variable {root path name part : String} {q parts : List String} {c : Char}

theorem IsPart.relative (h : IsPart part) : part.startsWith "/" = false := relative_of_plain h.plain

theorem IsPart.not_endsWith (h : IsPart part) (path : String) : (path ++ part).endsWith "/" = false := by
  rw [← Bool.not_eq_true, endsWith_slash]
  rintro ⟨more, heq⟩
  obtain ⟨cs, c, hcs⟩ := (List.eq_nil_or_concat' part.toList).resolve_left (by simpa using h.nonempty)
  rw [String.toList_append, hcs, ← List.append_assoc] at heq
  have hc : c = '/' := List.singleton_inj.mp (List.append_inj_right' heq rfl)
  exact h.plain (by simp [hcs, hc])

theorem join_of_slash (h : IsPart part) (hpath : path.endsWith "/" = true) :
    join path part = path ++ part := by
  rw [join, h.relative, if_neg Bool.false_ne_true, hpath, Bool.or_true, if_pos rfl]

theorem join_of_not_slash (h : IsPart part) (hpath : path.endsWith "/" = false) (hne : path ≠ "") :
    join path part = path ++ "/" ++ part := by
  have hempty : ¬ (path.isEmpty || path.endsWith "/") = true := by simpa [hpath] using hne
  rw [join, h.relative, if_neg Bool.false_ne_true, if_neg hempty]

theorem join_not_endsWith (h : IsPart part) (hne : path ≠ "") :
    (join path part).endsWith "/" = false := by
  cases hpath : path.endsWith "/" with
  | true => exact join_of_slash h hpath ▸ h.not_endsWith path
  | false => exact join_of_not_slash h hpath hne ▸ h.not_endsWith _

theorem join_ne_empty (h : IsPart part) (hne : path ≠ "") : join path part ≠ "" := by
  cases hpath : path.endsWith "/" with
  | true => simp [join_of_slash h hpath, hne]
  | false => simp [join_of_not_slash h hpath hne, hne]

theorem joinAll_cons : joinAll path (part :: parts) = joinAll (join path part) parts := rfl

theorem joinAll_append : joinAll path (parts ++ [part]) = join (joinAll path parts) part := by
  rw [joinAll, List.foldl_append, List.foldl_cons, List.foldl_nil, joinAll]

/-- Without a slash at its end, a path is joined to the parts by slashes. -/
theorem splitOn_joinAll (hpath : path.endsWith "/" = false) (hne : path ≠ "")
    (h : ∀ part ∈ parts, IsPart part) :
    joinAll path parts ≠ "" ∧ (joinAll path parts).splitOn "/" = path.splitOn "/" ++ parts := by
  induction parts generalizing path with
  | nil => exact ⟨hne, (List.append_nil _).symm⟩
  | cons part parts ih =>
    obtain ⟨hpart, hparts⟩ := List.forall_mem_cons.mp h
    have hjoined := ih (join_not_endsWith hpart hne) (join_ne_empty hpart hne) hparts
    rw [joinAll_cons]
    refine ⟨hjoined.1, hjoined.2.trans ?_⟩
    rw [join_of_not_slash hpart hpath hne, splitOn_append separates_slash,
      splitOn_piece separates_slash hpart.plain, List.append_assoc, List.singleton_append]

/-- Parts that are joined to nothing are the names of what they make. -/
theorem splitOn_joinAll_nil (hne : parts ≠ []) (h : ∀ part ∈ parts, IsPart part) :
    (joinAll "" parts).splitOn "/" = parts := by
  obtain ⟨part, parts, rfl⟩ := List.exists_cons_of_ne_nil hne
  obtain ⟨hpart, hparts⟩ := List.forall_mem_cons.mp h
  have hjoin : join "" part = part := by
    rw [join, hpart.relative, if_neg Bool.false_ne_true]
    simp
  have hend : part.endsWith "/" = false := by simpa using hpart.not_endsWith ""
  rw [joinAll_cons, hjoin, (splitOn_joinAll hend hpart.nonempty hparts).2,
    splitOn_piece separates_slash hpart.plain, List.singleton_append]

theorem below_self (hroot : root ≠ "") : Below root root [] :=
  ⟨hroot, _, splitOn_ne_nil separates_slash root, (List.append_nil _).symm, rfl⟩

/-- Parts that are joined to a root stand behind the same pieces, whichever they are. -/
theorem exists_splitOn_joinAll (hroot : root ≠ "") : ∃ before, before ≠ [] ∧
    before.filter counts = names root ∧ ∀ parts, parts ≠ [] → (∀ part ∈ parts, IsPart part) →
      joinAll root parts ≠ "" ∧ (joinAll root parts).splitOn "/" = before ++ parts := by
  have hone : ∃ before, before ≠ [] ∧ before.filter counts = names root ∧
      ∀ part, IsPart part → (join root part).splitOn "/" = before ++ [part] := by
    cases hend : root.endsWith "/" with
    | true =>
      obtain ⟨more, hmore⟩ := endsWith_slash.mp hend
      have hstart : root = String.ofList more ++ "/" := by
        simp [← String.toList_inj, hmore]
      refine ⟨_, splitOn_ne_nil separates_slash (String.ofList more), ?_, fun part hpart => ?_⟩
      · rw [hstart, names_slash]
        rfl
      · rw [join_of_slash hpart hend, hstart, splitOn_append separates_slash,
          splitOn_piece separates_slash hpart.plain]
    | false =>
      refine ⟨_, splitOn_ne_nil separates_slash root, rfl, fun part hpart => ?_⟩
      rw [join_of_not_slash hpart hend hroot, splitOn_append separates_slash,
        splitOn_piece separates_slash hpart.plain]
  obtain ⟨before, hbefore, hnames, hjoin⟩ := hone
  refine ⟨before, hbefore, hnames, fun parts hne h => ?_⟩
  obtain ⟨part, parts, rfl⟩ := List.exists_cons_of_ne_nil hne
  obtain ⟨hpart, hparts⟩ := List.forall_mem_cons.mp h
  have hjoined := splitOn_joinAll (join_not_endsWith hpart hroot) (join_ne_empty hpart hroot) hparts
  refine ⟨hjoined.1, ?_⟩
  rw [joinAll_cons, hjoined.2, hjoin part hpart, List.append_assoc, List.singleton_append]

theorem below_joinAll (hroot : root ≠ "") (h : ∀ part ∈ parts, IsPart part) :
    Below root (joinAll root parts) parts := by
  by_cases hne : parts = []
  · subst hne
    exact below_self hroot
  · obtain ⟨before, hbefore, hnames, hjoin⟩ := exists_splitOn_joinAll hroot
    exact ⟨(hjoin parts hne h).1, before, hbefore, (hjoin parts hne h).2, hnames⟩

/-- Different parts make different paths. -/
theorem joinAll_injective {parts' : List String} (hroot : root ≠ "") (hne : parts ≠ []) (hne' : parts' ≠ [])
    (h : ∀ part ∈ parts, IsPart part) (h' : ∀ part ∈ parts', IsPart part)
    (heq : joinAll root parts = joinAll root parts') : parts = parts' := by
  obtain ⟨before, -, -, hjoin⟩ := exists_splitOn_joinAll hroot
  have hsplit := (hjoin parts hne h).2
  rw [heq, (hjoin parts' hne' h').2] at hsplit
  exact (List.append_cancel_left hsplit).symm

theorem not_mem_join (hpath : c ∉ path.toList) (hpart : c ∉ part.toList) (hc : c ≠ '/') :
    c ∉ (join path part).toList := by
  have hslash : c ∉ "/".toList := mt List.mem_singleton.mp hc
  rw [join]
  split
  · exact hpart
  · split <;> simp only [String.toList_append, List.mem_append, not_or]
    · exact ⟨hpath, hpart⟩
    · exact ⟨⟨hpath, hslash⟩, hpart⟩

theorem size_le_join (h : IsPart part) : path.utf8ByteSize ≤ (join path part).utf8ByteSize := by
  rw [join, if_neg (Bool.eq_false_iff.mp h.relative)]
  split <;> simp only [String.utf8ByteSize_append] <;> omega

/-- Names that are joined to a path come with a slash each. -/
theorem size_joinAll (hpath : path.endsWith "/" = false) (hne : path ≠ "") (h : ∀ part ∈ parts, IsPart part) :
    (joinAll path parts).utf8ByteSize =
      path.utf8ByteSize + (parts.map fun part => part.utf8ByteSize + 1).sum := by
  induction parts generalizing path with
  | nil => rfl
  | cons part parts ih =>
    obtain ⟨hpart, hrest⟩ := List.forall_mem_cons.mp h
    have hsize : (join path part).utf8ByteSize = path.utf8ByteSize + (part.utf8ByteSize + 1) := by
      rw [join_of_not_slash hpart hpath hne, String.utf8ByteSize_append, String.utf8ByteSize_append]
      have hslash : "/".utf8ByteSize = 1 := by decide
      omega
    rw [joinAll_cons, ih (join_not_endsWith hpart hne) (join_ne_empty hpart hne) hrest, hsize, List.map_cons,
      List.sum_cons, Nat.add_assoc]

theorem size_join_le (h : IsPart part) :
    (join path part).utf8ByteSize ≤ path.utf8ByteSize + (part.utf8ByteSize + 1) := by
  have hslash : "/".utf8ByteSize = 1 := by decide
  rw [join, if_neg (Bool.eq_false_iff.mp h.relative)]
  split <;> simp only [String.utf8ByteSize_append] <;> omega

/-- What is before the last name on a path may lose a slash. -/
theorem size_directory_join_le (h : IsPart part) :
    (directory (join path part)).utf8ByteSize ≤ path.utf8ByteSize := by
  by_cases hne : path = ""
  · rw [hne, join, if_neg (Bool.eq_false_iff.mp h.relative), if_pos (by simp), String.empty_append,
      directory_piece h.plain]
  cases hpath : path.endsWith "/" with
  | true =>
    obtain ⟨more, hmore⟩ := endsWith_slash.mp hpath
    have hstart : path = String.ofList more ++ "/" := by simp [← String.toList_inj, hmore]
    rw [join_of_slash h hpath, hstart, directory_append h.plain]
    split
    · exact Nat.le_refl _
    · rw [String.utf8ByteSize_append]
      exact size_trimmed_le.trans (Nat.le_add_right _ _)
  | false =>
    have hempty : ¬ path.isEmpty = true := by simpa using hne
    rw [join_of_not_slash h hpath hne, directory_append h.plain, trimmed_eq hpath, if_neg hempty]

theorem size_le_joinAll (h : ∀ part ∈ parts, IsPart part) :
    path.utf8ByteSize ≤ (joinAll path parts).utf8ByteSize := by
  induction parts generalizing path with
  | nil => exact Nat.le_refl _
  | cons part parts ih =>
    obtain ⟨hpart, hrest⟩ := List.forall_mem_cons.mp h
    exact (size_le_join hpart).trans (ih hrest)

/-- Joining brings in no characters but slashes. -/
theorem not_mem_joinAll (hpath : c ∉ path.toList) (hparts : ∀ part ∈ parts, c ∉ part.toList)
    (hc : c ≠ '/') : c ∉ (joinAll path parts).toList := by
  induction parts generalizing path with
  | nil => exact hpath
  | cons part parts ih =>
    obtain ⟨hpart, hrest⟩ := List.forall_mem_cons.mp hparts
    exact ih (not_mem_join hpath hpart hc) hrest

theorem Below.names_eq_root (h : Below root path []) : names path = names root := by
  obtain ⟨before, -, hsplit, hnames⟩ := h.pieces
  rw [List.append_nil] at hsplit
  rw [names_eq, hsplit, hnames]

/-- A path is at least as long as the names on it are many. -/
theorem Below.length_le (h : Below root path q) : q.length ≤ path.length := by
  obtain ⟨before, hbefore, hsplit, -⟩ := h.pieces
  have hpieces := congrArg List.length hsplit
  have hpos := List.length_pos_iff.mpr hbefore
  have hmost := @length_splitOn_le '/' path.toList
  rw [splitOn_eq separates_slash, List.length_map, List.length_append] at hpieces
  rw [String.length_toList] at hmost
  omega

namespace Below

variable (h : Below root path (q ++ [name]))

include h

theorem exists_start : ∃ start before, path = start ++ "/" ++ name ∧ '/' ∉ name.toList ∧
    start.splitOn "/" = before ++ q ∧ before ≠ [] ∧ before.filter counts = names root := by
  obtain ⟨before, hbefore, hsplit, hnames⟩ := h.pieces
  rw [← List.append_assoc] at hsplit
  obtain ⟨start, hpath, hstart⟩ := exists_of_splitOn separates_slash hsplit (by simp [hbefore])
  have hname : '/' ∉ name.toList := pieces_plain separates_slash (s := path) (by simp [hsplit])
  exact ⟨start, before, hpath, hname, hstart, hbefore, hnames⟩

theorem baseName : baseName path = name := by
  obtain ⟨start, _, rfl, hname, -⟩ := h.exists_start
  exact baseName_append hname

/-- Going up takes the last name off. -/
theorem directory (hq : ∀ name ∈ q, name ≠ "") : Below root (directory path) q := by
  obtain ⟨start, before, rfl, hname, hstart, hbefore, hnames⟩ := h.exists_start
  rcases List.eq_nil_or_concat' q with rfl | ⟨q, last, rfl⟩
  · rw [List.append_nil] at hstart
    have hroot : names start = names root := by rw [names_eq, hstart, hnames]
    refine ⟨?_, _, splitOn_ne_nil separates_slash _, (List.append_nil _).symm, ?_⟩
    · rw [directory_append hname]
      split
      · simp
      · rename_i hne
        simpa using hne
    · rw [← names_eq, directory_append hname, ← hroot]
      split
      · exact names_slash start
      · exact names_trimmed start
  · -- the last name of the directory is not empty, so no slash is taken from its end
    rw [← List.append_assoc] at hstart
    obtain ⟨start', rfl, -⟩ := exists_of_splitOn separates_slash hstart (by simp [hbefore])
    have hpart : IsPart last := ⟨hq last (by simp), pieces_plain separates_slash
      (s := start' ++ "/" ++ last) (by simp [hstart])⟩
    have htrimmed : trimmed (start' ++ "/" ++ last) = start' ++ "/" ++ last :=
      trimmed_eq (hpart.not_endsWith (start' ++ "/"))
    have hne : start' ++ "/" ++ last ≠ "" := by simp
    rw [directory_append hname, htrimmed, if_neg (mt String.isEmpty_iff.mp hne)]
    exact ⟨hne, before, hbefore, by rw [hstart, List.append_assoc], hnames⟩

theorem not_endsWith (hname : name ≠ "") : path.endsWith "/" = false := by
  obtain ⟨start, _, rfl, hplain, -⟩ := h.exists_start
  exact (IsPart.mk hname hplain).not_endsWith (start ++ "/")

theorem parting (hname : name ≠ "") : parting path = (Path.directory path, name) := by
  rw [Path.parting, h.baseName, if_neg (by simpa using hname)]

end Below

end Below

end ClassAtlas.Path
