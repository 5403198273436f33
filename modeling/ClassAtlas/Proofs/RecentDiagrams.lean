import ClassAtlas.Proofs.StoredDiagrams

/-! # Recent diagrams

Summaries are put in order by the last changes of the diagrams' own rows. A save that brings other elements
but leaves the row as it was is not such a change, and its diagram keeps its place. So the diagram that was
saved last is listed first just as long as no save of that sort has overtaken another. -/

namespace ClassAtlas.Store

open Document

/-! ## What is remembered of a store -/

/-- What is remembered of a stored diagram. -/
structure Known where
  diagram : DiagramOf Value
  /-- How many saves came before its last one. -/
  saved : Nat
  /-- How many saves came before the last one that changed its row. -/
  changed : Nat

/-- What is remembered of a store. -/
structure Ledger where
  saves : Nat := 0
  known : String → Option Known := fun _ => none

/-- Whether a diagram finds its row as it wants it where another was saved before. -/
def sameRow (old d : DiagramOf Value) : Bool :=
  match DiagramRow.ofDiagram "" 0 old with
  | .ok row => row.agrees d
  | .error _ => false

namespace Ledger

/-- What is known of a diagram that is saved now. -/
def renewed (ledger : Ledger) (uuid : String) (d : DiagramOf Value) : Known where
  diagram := d
  saved := ledger.saves
  changed := match ledger.known uuid with
    | some old => if sameRow old.diagram d then old.changed else ledger.saves
    | none => ledger.saves

def put (ledger : Ledger) (uuid : String) (d : DiagramOf Value) : Ledger where
  saves := ledger.saves + 1
  known := Function.update ledger.known uuid (some (ledger.renewed uuid d))

def drop (ledger : Ledger) (uuid : String) : Ledger :=
  { ledger with known := Function.update ledger.known uuid none }

/-- What is remembered after a request. Only a save that was answered with a uuid counts. -/
def after (ledger : Ledger) (db : Database) : Request → Ledger
  | .save d => match (db.transact (saving d)).1 with
    | .ok uuid => ledger.put uuid d
    | .error _ => ledger
  | .delete uuid => ledger.drop uuid
  | .load _ => ledger

/-- The diagrams that are remembered. -/
def shelf (ledger : Ledger) : Shelf := fun uuid => (ledger.known uuid).map (·.diagram)

end Ledger

/-- A store, and what is remembered of it, after a request. -/
def note (now : Database × Ledger) (request : Request) : Database × Ledger :=
  (now.1.after request, now.2.after now.1 request)

/-- A new store, and what is remembered of it, after requests. -/
def remembered (requests : List Request) : Database × Ledger := requests.foldl note ({}, {})

/-- What a text column gives back. -/
def shown (v : Value) : String := (textColumn v).toOption.join.getD ""

/-- What a list of diagrams tells of a diagram that is remembered. -/
def Known.summary (known : Known) (uuid : String) : Database.Summary where
  uuid := uuid
  name := shown known.diagram.name
  description := shown known.diagram.description
  classifierCount := known.diagram.classifiers.length
  relationshipCount := known.diagram.relationships.length
  updated := known.changed

/-- All diagrams that are remembered, each once, with the newest first. -/
structure Newest (ledger : Ledger) (time : Known → Nat) (entries : List (String × Known)) : Prop where
  once : (entries.map (·.1)).Nodup
  all : ∀ uuid known, (uuid, known) ∈ entries ↔ ledger.known uuid = some known
  ordered : entries.Pairwise fun a b => time b.2 < time a.2

/-! ## Rows and their times -/

section Rows

variable {uuid other : String} {updated : Nat} {d old : DiagramOf Value} {row : DiagramRow}
  {rows : List DiagramRow}

/-- The uuid and the time of a row are all that does not come from the diagram. -/
theorem ofDiagram_again (h : DiagramRow.ofDiagram uuid updated d = .ok row) (other : String) (time : Nat) :
    DiagramRow.ofDiagram other time d = .ok { row with uuid := other, updated := time } := by
  unfold DiagramRow.ofDiagram at h ⊢
  simp only [bind_eq_ok] at h ⊢
  obtain ⟨name, hname, description, hdescription, author, hauthor, version, hversion, h⟩ := h
  obtain ⟨background, hbackground, text, htext, h⟩ := h
  cases h
  exact ⟨name, hname, description, hdescription, author, hauthor, version, hversion, background,
    hbackground, text, htext, rfl⟩

theorem updated_of_ofDiagram (h : DiagramRow.ofDiagram uuid updated d = .ok row) :
    row.updated = updated := by
  have hsame := h.symm.trans (ofDiagram_again h uuid updated)
  rw [Except.ok.inj hsame]

theorem agrees_eq_sameRow (h : DiagramRow.ofDiagram uuid updated old = .ok row) :
    row.agrees d = sameRow old d := by
  rw [sameRow, ofDiagram_again h]
  rfl

theorem same_text? (text? text?' : Option String) :
    (Value.ofText? text?).same (Value.ofText? text?') = (text? == text?') := by
  cases text? <;> cases text?' <;> unfold Value.ofText? Value.same <;> rfl

/-- Of two diagrams of texts, the header decides whether a row stays. No element counts. -/
theorem sameRow_text {t t' : Diagram} (hgrid : Held t.gridSize) :
    sameRow (t.map Value.str) (t'.map Value.str) = (t.name == t'.name && t.description == t'.description &&
      t.author == t'.author && t.version == t'.version && t.showGrid == t'.showGrid &&
      t.snapToGrid == t'.snapToGrid && (Value.float t.gridSize).same (.float t'.gridSize) &&
      t.backgroundColor == t'.backgroundColor) := by
  have hrow : DiagramRow.ofDiagram "" 0 (t.map Value.str) = .ok {
      uuid := "", name := t.name, description := t.description, author := t.author, version := t.version
      showGrid := t.showGrid, snapToGrid := t.snapToGrid, gridSize := numberColumn t.gridSize
      backgroundColor := t.backgroundColor, updated := 0 } := by
    unfold DiagramRow.ofDiagram
    simp only [DiagramOf.map, optionalColumn_text]
    rfl
  have htext (text? : Option String) : ofOption (text?.map Value.str) = Value.ofText? text? := by
    cases text? <;> rfl
  rw [sameRow, hrow]
  show ((Value.ofText? t.name).same (Value.ofText? t'.name) &&
    (Value.ofText? t.description).same (Value.ofText? t'.description) &&
    (Value.ofText? t.author).same (ofOption (t'.author.map Value.str)) &&
    (Value.ofText? t.version).same (ofOption (t'.version.map Value.str)) &&
    t.showGrid == t'.showGrid && t.snapToGrid == t'.snapToGrid &&
    (ofNumber (numberColumn t.gridSize)).same (.float t'.gridSize) &&
    (Value.ofText? t.backgroundColor).same (Value.ofText? t'.backgroundColor)) = _
  simp [htext, same_text?, ofNumber_numberColumn hgrid]

theorem texts_of_ofDiagram (h : DiagramRow.ofDiagram uuid updated d = .ok row) :
    row.name = shown d.name ∧ row.description.getD "" = shown d.description := by
  unfold DiagramRow.ofDiagram column at h
  simp only [bind_eq_ok, filled_eq_ok] at h
  obtain ⟨_, hname, _, hdescription, _, -, _, -, _, -, _, rfl, h⟩ := h
  cases h
  rw [shown, shown, show textColumn d.name = _ from hname, show textColumn d.description = _ from hdescription]
  exact ⟨rfl, rfl⟩

/-- A row takes the place of the one with its uuid, or comes last. -/
theorem uuids_putRow (row : DiagramRow) (rows : List DiagramRow) :
    (Database.putRow row rows).map (·.uuid) = rows.map (·.uuid) ∨
      row.uuid ∉ rows.map (·.uuid) ∧
        (Database.putRow row rows).map (·.uuid) = rows.map (·.uuid) ++ [row.uuid] := by
  induction rows with
  | nil => exact .inr ⟨List.not_mem_nil, rfl⟩
  | cons first rest ih =>
    unfold Database.putRow
    by_cases hsame : first.uuid = row.uuid
    · left
      simp [hsame]
    · rw [if_neg (by simpa using hsame)]
      rcases ih with ih | ⟨hnew, ih⟩
      · exact .inl (congrArg (_ :: ·) ih)
      · exact .inr ⟨List.not_mem_cons_of_ne_of_not_mem (Ne.symm hsame) hnew, congrArg (_ :: ·) ih⟩

theorem nodup_putRow (h : (rows.map (·.uuid)).Nodup) :
    ((Database.putRow row rows).map (·.uuid)).Nodup := by
  rcases uuids_putRow row rows with hsame | ⟨hnew, hsame⟩
  · rwa [hsame]
  · rw [hsame]
    exact h.append (List.nodup_singleton _) (by simpa using hnew)

/-- Among rows with different uuids, each is found under its own. -/
theorem find?_of_mem (h : (rows.map (·.uuid)).Nodup) (hrow : row ∈ rows) :
    rows.find? (·.uuid == row.uuid) = some row := by
  induction rows with
  | nil => cases hrow
  | cons first rest ih =>
    obtain ⟨hfirst, hrest⟩ := List.nodup_cons.mp h
    rcases List.mem_cons.mp hrow with rfl | hrow
    · exact List.find?_cons_of_pos (beq_self_eq_true _)
    · have hne : first.uuid ≠ row.uuid := fun heq => hfirst (List.mem_map.mpr ⟨row, hrow, heq.symm⟩)
      rw [List.find?_cons_of_neg (by simpa using hne)]
      exact ih hrest hrow

end Rows

/-! ## What is remembered is right -/

/-- The rows of a store are those of the remembered diagrams, and have the remembered times. -/
structure Dated (db : Database) (ledger : Ledger) : Prop where
  clock : db.clock = ledger.saves
  holds : ∀ uuid, Holds db uuid (ledger.shelf uuid)
  rows : (db.diagrams.map (·.uuid)).Nodup
  updated : ∀ uuid known row, ledger.known uuid = some known → db.row? uuid = some row →
    row.updated = known.changed
  past : ∀ uuid known, ledger.known uuid = some known →
    known.changed ≤ known.saved ∧ known.saved < ledger.saves
  apart : ∀ uuid other known known', ledger.known uuid = some known →
    ledger.known other = some known' → known.changed = known'.changed ∨ known.saved = known'.saved →
    uuid = other

section Dated

variable {db db' : Database} {ledger : Ledger} {uuid : String} {d : DiagramOf Value}
  {requests : List Request} {request : Request}

/-- What a request does to a store and to what is remembered of it. -/
inductive Noted (db : Database) (ledger : Ledger) : Request → Database × Ledger → Prop where
  | saved {d : DiagramOf Value} {uuid : String} {db' : Database} : Makes (saving d) db uuid db' →
      Noted db ledger (.save d) (db', ledger.put uuid d)
  | refused {d : DiagramOf Value} : Noted db ledger (.save d) (db, ledger)
  | deleted {uuid : String} : Noted db ledger (.delete uuid) ((db.delete uuid).1, ledger.drop uuid)
  | loaded {uuid : String} : Noted db ledger (.load uuid) (db, ledger)

theorem noted_note (db : Database) (ledger : Ledger) (request : Request) :
    Noted db ledger request (note (db, ledger) request) := by
  cases request with
  | load uuid => exact .loaded
  | delete uuid => exact .deleted
  | save d =>
    unfold note Database.after Ledger.after
    dsimp only
    rcases hwork : (saving d).run.run db with ⟨e | uuid, db'⟩
    · rw [transact_of_fails hwork]
      exact .refused
    · rw [transact_of_makes hwork]
      exact .saved hwork

theorem shelf_put : (ledger.put uuid d).shelf = Function.update ledger.shelf uuid (some d) := by
  funext other
  by_cases hsame : other = uuid
  · subst hsame
    simp [Ledger.shelf, Ledger.put, Ledger.renewed]
  · simp [Ledger.shelf, Ledger.put, Function.update_of_ne hsame]

theorem shelf_drop : (ledger.drop uuid).shelf = Function.update ledger.shelf uuid none := by
  funext other
  by_cases hsame : other = uuid
  · subst hsame
    simp [Ledger.shelf, Ledger.drop]
  · simp [Ledger.shelf, Ledger.drop, Function.update_of_ne hsame]

theorem Dated.holds_known (h : Dated db ledger) {known : Known} (hknown : ledger.known uuid = some known) :
    Holds db uuid (some known.diagram) := by
  have huuid := h.holds uuid
  rwa [Ledger.shelf, hknown] at huuid

/-- The time of a row that is written now is the one that is remembered. -/
theorem Dated.stamp_eq (h : Dated db ledger) (uuid : String) (d : DiagramOf Value) :
    db.stamp uuid d = (ledger.renewed uuid d).changed := by
  unfold Database.stamp Ledger.renewed
  cases hknown : ledger.known uuid with
  | none =>
    have hrow := (h.holds uuid).row?_isSome
    rw [Ledger.shelf, hknown, Option.map_none, Option.isSome_none, Option.isSome_eq_false_iff,
      Option.isNone_iff_eq_none] at hrow
    rw [hrow]
    exact h.clock
  | some known =>
    cases h.holds_known hknown with
    | diagram rows _ hrow =>
      rw [hrow]
      dsimp only
      rw [agrees_eq_sameRow rows.diagram_eq, h.updated uuid known _ hknown hrow, h.clock]

theorem known_put {other : String} {known : Known} (h : (ledger.put uuid d).known other = some known) :
    other = uuid ∧ known = ledger.renewed uuid d ∨ other ≠ uuid ∧ ledger.known other = some known := by
  by_cases hsame : other = uuid
  · subst hsame
    simp only [Ledger.put, Function.update_self] at h
    exact .inl ⟨rfl, (Option.some.inj h).symm⟩
  · simp only [Ledger.put, Function.update_of_ne hsame] at h
    exact .inr ⟨hsame, h⟩

theorem known_drop {other : String} {known : Known} (h : (ledger.drop uuid).known other = some known) :
    other ≠ uuid ∧ ledger.known other = some known := by
  by_cases hsame : other = uuid
  · subst hsame
    simp only [Ledger.drop, Function.update_self] at h
    cases h
  · simp only [Ledger.drop, Function.update_of_ne hsame] at h
    exact ⟨hsame, h⟩

/-- A save changes the row now, or leaves the time of its last change. -/
theorem changed_renewed (ledger : Ledger) (uuid : String) (d : DiagramOf Value) :
    (ledger.renewed uuid d).changed = ledger.saves ∨
      ∃ old, ledger.known uuid = some old ∧ (ledger.renewed uuid d).changed = old.changed := by
  unfold Ledger.renewed
  cases hknown : ledger.known uuid with
  | none => exact .inl rfl
  | some old =>
    dsimp only
    split
    · exact .inr ⟨old, rfl, rfl⟩
    · exact .inl rfl

theorem Dated.changed_le (h : Dated db ledger) : (ledger.renewed uuid d).changed ≤ ledger.saves := by
  rcases changed_renewed ledger uuid d with hnow | ⟨old, hold, hkept⟩
  · exact Nat.le_of_eq hnow
  · have hpast := h.past uuid old hold
    omega

/-- A diagram that is saved now shares no time with another. -/
theorem Dated.apart_renewed (h : Dated db ledger) {other : String} {known : Known}
    (hknown : ledger.known other = some known)
    (htime : (ledger.renewed uuid d).changed = known.changed ∨ ledger.saves = known.saved) :
    uuid = other := by
  have hpast := h.past other known hknown
  rcases htime with hchanged | hsaved
  · rcases changed_renewed ledger uuid d with hnow | ⟨old, hold, hkept⟩
    · omega
    · exact h.apart uuid other old known hold hknown (.inl (hkept.symm.trans hchanged))
  · omega

theorem Dated.put (h : Dated db ledger) (hsave : Makes (saving d) db uuid db') :
    Dated db' (ledger.put uuid d) := by
  have hholds := holds_update h.holds ((h.holds uuid).saved hsave) fun _ => sameRows_saving hsave
  have hothers (other : String) : other ≠ uuid → SameRows db db' other := sameRows_saving hsave
  obtain ⟨-, rows, rfl⟩ := makes_saving.mp hsave
  refine ⟨congrArg (· + 1) h.clock, shelf_put ▸ hholds, nodup_putRow h.rows, ?_, ?_, ?_⟩
  · intro other known row hknown hrow
    rcases known_put hknown with ⟨rfl, rfl⟩ | ⟨hne, hknown⟩
    · have hput : (Database.putRow rows.diagram db.diagrams).find? (·.uuid == other) =
          some rows.diagram := by
        rw [find?_putRow, if_pos (uuid_of_ofDiagram rows.diagram_eq).symm]
      rw [← Option.some.inj (hput.symm.trans hrow), updated_of_ofDiagram rows.diagram_eq, h.stamp_eq]
    · exact h.updated other known row hknown ((hothers other hne).row.symm.trans hrow)
  · intro other known hknown
    rcases known_put hknown with ⟨rfl, rfl⟩ | ⟨-, hknown⟩
    · exact ⟨h.changed_le, Nat.lt_succ_self _⟩
    · have hpast := h.past other known hknown
      exact ⟨hpast.1, Nat.lt_succ_of_lt hpast.2⟩
  · intro first second known known' hfirst hsecond htime
    rcases known_put hfirst with ⟨rfl, rfl⟩ | ⟨-, hold⟩
    · rcases known_put hsecond with ⟨rfl, rfl⟩ | ⟨-, hold⟩
      · rfl
      · exact h.apart_renewed hold htime
    · rcases known_put hsecond with ⟨rfl, rfl⟩ | ⟨-, hold'⟩
      · exact (h.apart_renewed hold (htime.imp Eq.symm Eq.symm)).symm
      · exact h.apart first second known known' hold hold' htime

theorem Dated.drop (h : Dated db ledger) : Dated (db.delete uuid).1 (ledger.drop uuid) := by
  have hholds := holds_update h.holds (h.holds uuid).deleted fun _ => sameRows_delete
  have hclock : (db.delete uuid).1.clock = db.clock := by
    unfold Database.delete
    split <;> rfl
  have hrows : (db.delete uuid).1.diagrams.Sublist db.diagrams := by
    unfold Database.delete
    split
    · exact .refl _
    · exact List.filter_sublist
  refine ⟨hclock.trans h.clock, shelf_drop ▸ hholds, h.rows.sublist (hrows.map _), ?_, ?_, ?_⟩
  · intro other known row hknown hrow
    obtain ⟨hne, hknown⟩ := known_drop hknown
    exact h.updated other known row hknown ((sameRows_delete hne).row.symm.trans hrow)
  · exact fun other known hknown => h.past other known (known_drop hknown).2
  · exact fun first second known known' hknown hknown' =>
      h.apart first second known known' (known_drop hknown).2 (known_drop hknown').2

/-- What is remembered stays right with each request. -/
theorem Dated.note (h : Dated db ledger) (request : Request) :
    Dated (note (db, ledger) request).1 (note (db, ledger) request).2 := by
  have hnoted := noted_note db ledger request
  generalize Store.note (db, ledger) request = after at hnoted ⊢
  cases hnoted with
  | refused | loaded => exact h
  | deleted => exact h.drop
  | saved hsave => exact h.put hsave

theorem dated_remembered (requests : List Request) :
    Dated (remembered requests).1 (remembered requests).2 := by
  refine List.foldlRecOn (motive := fun now => Dated now.1 now.2) requests note ?_
    fun now h request _ => h.note request
  have hnone {uuid : String} {known : Known} : ({} : Ledger).known uuid ≠ some known :=
    (Option.some_ne_none known).symm
  exact ⟨rfl, fun _ => .nothing rfl rfl rfl, .nil, fun _ _ _ hknown => absurd hknown hnone,
    fun _ _ hknown => absurd hknown hnone, fun _ _ _ _ hknown => absurd hknown hnone⟩

theorem remembered_run (requests : List Request) : (remembered requests).1 = (run requests).1 := by
  have hnote : (remembered requests).1 = requests.foldl Database.after {} :=
    (List.foldl_hom Prod.fst fun _ _ => rfl).symm
  have hanswer : (run requests).1 = requests.foldl Database.after {} :=
    (List.foldl_hom Prod.fst fun _ _ => rfl).symm
  rw [hnote, hanswer]

end Dated

/-! ## Summaries -/

section Summaries

variable {τ : Type} {db : Database} {ledger : Ledger} {uuid : String} {known : Known} {row : DiagramRow}
  {es : List (ElementOf τ)}

/-- Places do not change what is placed. -/
theorem placed_fst {α : Type} (part : ElementOf τ → Option α) (es : List (ElementOf τ)) :
    (es.zipIdx.filterMap fun p => (part p.1).map (·, p.2)).map (·.1) = es.filterMap part := by
  have hplaced : es.filterMap part = es.zipIdx.filterMap (part ·.1) := by
    conv_lhs => rw [← List.zipIdx_map_fst 0 es, List.filterMap_map]
    rfl
  rw [hplaced, List.map_filterMap]
  refine congrArg (List.filterMap · es.zipIdx) (funext fun p => ?_)
  cases part p.1 <;> rfl

theorem Dated.summary_eq (h : Dated db ledger) (hknown : ledger.known uuid = some known)
    (hrow : db.row? uuid = some row) : db.summary row = known.summary uuid := by
  have hupdated := h.updated uuid known row hknown hrow
  cases h.holds_known hknown with
  | diagram rows _ hrow' hclassifiers hrelationships =>
    cases Option.some.inj (hrow.symm.trans hrow')
    have huuid := uuid_of_ofDiagram rows.diagram_eq
    obtain ⟨hname, hdescription⟩ := texts_of_ofDiagram rows.diagram_eq
    have hcountC : db.classifiers.countP (·.diagram == uuid) = known.diagram.classifiers.length := by
      rw [List.countP_eq_length_filter, ← Database.classifiersOf, hclassifiers,
        ← rows.classifiers_written.length_eq, DiagramOf.classifiers, ← placed_fst, List.length_map]
      rfl
    have hcountR : db.relationships.countP (·.diagram == uuid) = known.diagram.relationships.length := by
      rw [List.countP_eq_length_filter, ← Database.relationshipsOf, hrelationships,
        ← rows.relationships_written.length_eq, DiagramOf.relationships, ← placed_fst, List.length_map]
      rfl
    rw [Database.summary, Known.summary, huuid, hname, hdescription, hcountC, hcountR, hupdated]

/-- An entry for what is remembered of a row. -/
structure Recalls (db : Database) (ledger : Ledger) (row : DiagramRow) (e : String × Known) : Prop where
  uuid : e.1 = row.uuid
  known : ledger.known e.1 = some e.2
  updated : e.2.changed = row.updated
  summary : e.2.summary e.1 = db.summary row

theorem Dated.exists_recalls (h : Dated db ledger) (hrow : row ∈ db.diagrams) :
    ∃ e, Recalls db ledger row e := by
  have hfound : db.row? row.uuid = some row := find?_of_mem h.rows hrow
  have hsome := (h.holds row.uuid).row?_isSome
  rw [hfound, Option.isSome_some, Ledger.shelf, Option.isSome_map] at hsome
  obtain ⟨known, hknown⟩ := Option.isSome_iff_exists.mp hsome.symm
  exact ⟨(row.uuid, known), rfl, hknown, (h.updated _ known row hknown hfound).symm,
    (h.summary_eq hknown hfound).symm⟩

theorem listRecent_natCast (db : Database) (n : Nat) : db.listRecent n =
    ((db.diagrams.mergeSort fun a b => b.updated ≤ a.updated).map db.summary).take n := by
  have hlimit : ¬ (n : Int) < 0 := by omega
  rw [Database.listRecent, if_neg hlimit, Int.toNat_natCast, List.map_take]

/-- Summaries are listed by the last changes of rows. -/
theorem Dated.exists_newest (h : Dated db ledger) : ∃ entries, Newest ledger (·.changed) entries ∧
    ∀ n : Nat, db.listRecent n = (entries.take n).map fun e => e.2.summary e.1 := by
  obtain ⟨newest, hnewest⟩ :
      ∃ newest, newest = db.diagrams.mergeSort fun a b => b.updated ≤ a.updated := ⟨_, rfl⟩
  have hperm : newest.Perm db.diagrams := hnewest ▸ List.mergeSort_perm _ _
  have hsorted : newest.Pairwise fun a b => decide (b.updated ≤ a.updated) = true := by
    rw [hnewest]
    exact List.pairwise_mergeSort (fun a b c => by simp only [decide_eq_true_eq]; omega)
      (fun a b => by simp only [Bool.or_eq_true, decide_eq_true_eq]; omega) _
  obtain ⟨entries, hentries⟩ := exists_written fun row hrow => h.exists_recalls (hperm.subset hrow)
  have huuids : entries.map (·.1) = newest.map (·.uuid) :=
    map_eq_of_forall₂ hentries fun _ _ hrecalls => hrecalls.uuid
  have htimes : entries.map (·.2.changed) = newest.map (·.updated) :=
    map_eq_of_forall₂ hentries fun _ _ hrecalls => hrecalls.updated
  have hknown : ∀ e ∈ entries, ledger.known e.1 = some e.2 :=
    forall_of_written hentries fun _ _ hrecalls => hrecalls.known
  have honce : (entries.map (·.1)).Nodup := huuids ▸ (hperm.map _).nodup_iff.mpr h.rows
  refine ⟨entries, ⟨honce, fun uuid known => ⟨hknown (uuid, known), fun hstored => ?_⟩, ?_⟩, fun n => ?_⟩
  · have hsome := (h.holds uuid).row?_isSome
    rw [Ledger.shelf, hstored, Option.map_some, Option.isSome_some] at hsome
    obtain ⟨row, hrow⟩ := Option.isSome_iff_exists.mp hsome
    have hmem : row ∈ newest := hperm.symm.subset (List.mem_of_find?_eq_some hrow)
    have huuid : row.uuid = uuid := by simpa using List.find?_some hrow
    have hlisted : uuid ∈ entries.map (·.1) := huuids ▸ List.mem_map.mpr ⟨row, hmem, huuid⟩
    obtain ⟨e, he, rfl⟩ := List.mem_map.mp hlisted
    cases Option.some.inj (hstored.symm.trans (hknown e he))
    exact he
  · have hle : entries.Pairwise fun a b => b.2.changed ≤ a.2.changed := by
      have hmapped : (newest.map (·.updated)).Pairwise fun a b => b ≤ a :=
        List.pairwise_map.mpr (hsorted.imp fun hle => of_decide_eq_true hle)
      rw [← htimes] at hmapped
      exact List.pairwise_map.mp hmapped
    refine (hle.and (List.pairwise_map.mp honce)).imp_of_mem fun {a b} ha hb hboth => ?_
    refine Nat.lt_of_le_of_ne hboth.1 fun hsame => hboth.2 ?_
    exact h.apart a.1 b.1 a.2 b.2 (hknown a ha) (hknown b hb) (.inl hsame.symm)
  · have hsummaries : entries.map (fun e => e.2.summary e.1) = newest.map db.summary :=
      map_eq_of_forall₂ hentries fun _ _ hrecalls => hrecalls.summary
    rw [listRecent_natCast, ← hnewest, ← hsummaries, List.map_take]

end Summaries

/-! ## The order of a list of diagrams -/

section Order

variable {db : Database} {ledger : Ledger} {time time' : Known → Nat}
  {entries entries' : List (String × Known)}

/-- The summaries of a store, all of them or the first few, are those of the entries. -/
def Lists (db : Database) (entries : List (String × Known)) : Prop :=
  ∀ n : Nat, db.listRecent n = (entries.take n).map fun e => e.2.summary e.1

/-- The uuids are enough to tell the entries. -/
theorem Newest.entries_eq (h : Newest ledger time entries) :
    entries = (entries.map (·.1)).filterMap fun uuid => (ledger.known uuid).map (uuid, ·) := by
  have hknown : ∀ e ∈ entries, (ledger.known e.1).map (e.1, ·) = some e := by
    intro e he
    rw [(h.all e.1 e.2).mp he]
    rfl
  rw [List.filterMap_map]
  conv_lhs => rw [← List.filterMap_some (l := entries)]
  exact List.filterMap_congr fun e he => (hknown e he).symm

theorem Newest.eq_of_lists (h : Newest ledger time entries) (h' : Newest ledger time' entries')
    (hlists : Lists db entries) (hlists' : Lists db entries') : entries = entries' := by
  have hsame := (hlists (entries.length + entries'.length)).symm.trans (hlists' _)
  rw [List.take_of_length_le (by omega), List.take_of_length_le (by omega)] at hsame
  have huuids := congrArg (List.map (·.uuid)) hsame
  rw [List.map_map, List.map_map] at huuids
  have huuids : entries.map (·.1) = entries'.map (·.1) := huuids
  rw [h.entries_eq, h'.entries_eq, huuids]

/-- Diagrams have the same order by two times if neither time puts two of them the other way round. -/
theorem Newest.retimed (h : Newest ledger time entries) : Newest ledger time' entries ↔
    ∀ uuid other known known', ledger.known uuid = some known → ledger.known other = some known' →
      time known < time known' → time' known < time' known' := by
  constructor
  · intro h' uuid other known known' hknown hknown' hlt
    have hbefore : entries.Pairwise fun a b => time a.2 < time b.2 → time' a.2 < time' b.2 :=
      h.ordered.imp fun hgt hlt => absurd hgt (Nat.lt_asymm hlt)
    have hbehind : entries.Pairwise fun a b => time b.2 < time a.2 → time' b.2 < time' a.2 := by
      refine h'.ordered.imp ?_
      intro a b hgt _
      exact hgt
    exact hbefore.forall_of_forall_of_flip (fun _ _ hlt => absurd hlt (Nat.lt_irrefl _)) hbehind
      ((h.all uuid known).mpr hknown) ((h.all other known').mpr hknown') hlt
  · intro hagree
    refine ⟨h.once, h.all, h.ordered.imp_of_mem fun {a b} ha hb hlt => ?_⟩
    exact hagree b.1 a.1 b.2 a.2 ((h.all b.1 b.2).mp hb) ((h.all a.1 a.2).mp ha) hlt

end Order

/-- A list of diagrams has each stored diagram once, the newest row first. It has the newest save first just
as long as, of any two diagrams, the one whose row changed later was saved later too. -/
theorem listRecent_run (requests : List Request) :
    (∃ entries, Newest (remembered requests).2 (·.changed) entries ∧ Lists (run requests).1 entries) ∧
      ((∃ entries, Newest (remembered requests).2 (·.saved) entries ∧ Lists (run requests).1 entries) ↔
        ∀ uuid other known known', (remembered requests).2.known uuid = some known →
          (remembered requests).2.known other = some known' →
          known.changed < known'.changed → known.saved < known'.saved) := by
  obtain ⟨entries, hnewest, hlists⟩ := (dated_remembered requests).exists_newest
  rw [remembered_run] at hlists
  refine ⟨⟨entries, hnewest, hlists⟩, ?_⟩
  rw [← hnewest.retimed]
  constructor
  · intro hgiven
    obtain ⟨entries', hnewest', hlists'⟩ := hgiven
    exact hnewest.eq_of_lists hnewest' hlists hlists' ▸ hnewest'
  · intro hsaved
    exact ⟨entries, hsaved, hlists⟩

/-- After a save that only brings an element, the diagram that was saved before it is still listed first. -/
theorem listRecent_run_resaved :
    let empty (uuid : String) : Diagram := (DiagramOf.empty uuid "" none none (some uuid) {}).1
    let grown : Diagram := { empty "a" with elements := [.classifier (bareClass 0 "s")], index := [("s", 0)] }
    let requests := [Request.save ((empty "a").map Value.str), .save ((empty "b").map Value.str),
      .save (grown.map Value.str)]
    ¬ ∃ entries, Newest (remembered requests).2 (·.saved) entries ∧ Lists (run requests).1 entries := by
  intro empty grown requests
  have hkept : sameRow ((empty "a").map Value.str) (grown.map Value.str) = true := by
    rw [sameRow_text (by unfold Held; decide)]
    unfold Value.same
    decide
  have hfirst : (remembered requests).2.known "a" =
      some { diagram := grown.map Value.str, saved := 2, changed := 0 } := by
    have hknown : (remembered requests).2.known "a" = some {
        diagram := grown.map Value.str, saved := 2
        changed := if sameRow ((empty "a").map Value.str) (grown.map Value.str) then 0 else 2 } := rfl
    rw [hknown, if_pos hkept]
  have hsecond : (remembered requests).2.known "b" =
      some { diagram := (empty "b").map Value.str, saved := 1, changed := 1 } := rfl
  rw [(listRecent_run requests).2]
  intro h
  exact absurd (h "a" "b" _ _ hfirst hsecond (by decide)) (by decide)

end ClassAtlas.Store
