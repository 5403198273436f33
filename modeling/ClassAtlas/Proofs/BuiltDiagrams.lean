import ClassAtlas.Assembly
import ClassAtlas.Proofs.Reachable

/-! # Diagrams built from records

Entering records never fails: each classifier gets the next key and the next id, and neither is taken.
So the diagram has one classifier for each record, in order, and it is reachable like any other. -/

namespace ClassAtlas.Assembly

open Java (TypeRecord)

/-- The id with this number. -/
def drawnId (n : Nat) : String := "id-" ++ toString n

theorem drawnId_injective {m n : Nat} (h : drawnId m = drawnId n) : m = n := by
  have hdigits : (toString m).toList = (toString n).toList := by simpa [drawnId] using congrArg String.toList h
  simpa [Nat.toString_eq_ofList_toDigits] using congrArg (Nat.ofDigitChars 10 · 0) hdigits

theorem drawnId_ne (n : Nat) : drawnId n ≠ "" := by simp [drawnId]

/-- What is left of a supply after a number of elements without ids of their own. -/
def spent (s : Supply) (n : Nat) : Supply := ⟨s.drawn + n, s.born + n⟩

@[simp]
theorem spent_drawn (s : Supply) (n : Nat) : (spent s n).drawn = s.drawn + n := rfl

@[simp]
theorem spent_born (s : Supply) (n : Nat) : (spent s n).born = s.born + n := rfl

/-- The classifier of a record under the key and the id that come next. -/
def nextClassifier (s : Supply) (r : TypeRecord) : Classifier :=
  { classifierOf r with key := s.born, id := drawnId (s.drawn + 1) }

/-- The classifiers of records, each as the next. -/
def entered : Supply → List TypeRecord → List Classifier
  | _, [] => []
  | s, r :: rest => nextClassifier s r :: entered (spent s 1) rest

/-- A diagram with more classifiers at its end. -/
def withClassifiers (d : Diagram) (cs : List Classifier) : Diagram :=
  { d with
    elements := d.elements ++ cs.map .classifier
    index := d.index ++ cs.map fun c => (c.id, c.key) }

/-- No id that is yet to come is in use. -/
def Unused (d : Diagram) (s : Supply) : Prop := ∀ n, s.drawn < n → d.keyOf? (drawnId n) = none

/-- The keys and the ids that come next belong together. -/
def Numbers (w : Identity String) (s : Supply) : Prop :=
  ∀ n, w.id (s.born + n) = drawnId (s.drawn + 1 + n)

/-- Identities that number ids from a supply on. -/
def numbering (s : Supply) (source target : Nat → Nat) : Identity String :=
  ⟨fun key => drawnId (s.drawn + 1 + (key - s.born)), source, target⟩

theorem numbers_numbering {s : Supply} {source target : Nat → Nat} :
    Numbers (numbering s source target) s := by
  intro n
  show drawnId (s.drawn + 1 + (s.born + n - s.born)) = _
  rw [Nat.add_sub_cancel_left]

section Entered

variable {w : Identity String} {d : Diagram} {s : Supply} {r : TypeRecord} {records : List TypeRecord}

theorem withClassifiers_cons (c : Classifier) (cs : List Classifier) :
    withClassifiers d (c :: cs) = withClassifiers (withClassifiers d [c]) cs := by
  simp [withClassifiers]

theorem keyOf?_withClassifier {c : Classifier} {id : String} (hfree : d.keyOf? id = none)
    (hne : id ≠ c.id) : (withClassifiers d [c]).keyOf? id = none := by
  have hlast : (id == c.id) = false := beq_eq_false_iff_ne.mpr hne
  unfold DiagramOf.keyOf? at hfree ⊢
  simp [withClassifiers, List.lookup_append, hfree, List.lookup_cons, hlast]

theorem Unused.next (h : Unused d s) {c : Classifier} (hid : c.id = drawnId (s.drawn + 1)) :
    Unused (withClassifiers d [c]) (spent s 1) := by
  intro n hn
  refine keyOf?_withClassifier (h n (Nat.lt_of_succ_lt hn)) fun heq => ?_
  have hnumber := drawnId_injective (heq.trans hid)
  rw [spent_drawn] at hn
  omega

theorem Numbers.next (h : Numbers w s) : Numbers w (spent s 1) := by
  intro n
  have hnext := h (n + 1)
  rw [spent_born, spent_drawn, show s.born + 1 + n = s.born + (n + 1) by omega, hnext]
  exact congrArg drawnId (by omega)

/-- Records are entered, each as the next classifier. -/
theorem addRecords_eq (h : Unused d s) : addRecords d s records =
    .ok (withClassifiers d (entered s records), spent s records.length) := by
  induction records generalizing d s with
  | nil => simp [addRecords, entered, withClassifiers, spent]
  | cons r records ih =>
    have hfree : d.keyOf? (nextClassifier s r).id = none := h _ (Nat.lt_succ_self _)
    have hadd : d.addClassifier (nextClassifier s r) = .ok (withClassifiers d [nextClassifier s r]) := by
      simp [DiagramOf.addClassifier, DiagramOf.holdsClassifier, hfree, withClassifiers]
    have henrol : s.enrolClassifier (classifierOf r) = (nextClassifier s r, spent s 1) := rfl
    have hspent : spent (spent s 1) records.length = spent s (r :: records).length := by
      simp only [spent, List.length_cons]
      rw [Nat.add_assoc, Nat.add_assoc, Nat.add_comm 1]
    rw [addRecords, henrol]
    dsimp only
    rw [hadd, Except.bind, ih (h.next rfl), entered, withClassifiers_cons _ (entered _ _), hspent]

/-- Classifiers under free ids, all different, can be added. -/
theorem reachable_withClassifiers {cs : List Classifier} (hreach : Reachable w d)
    (hids : ∀ c ∈ cs, c.id = w.id c.key) (hfree : ∀ c ∈ cs, d.keyOf? c.id = none)
    (hdistinct : (cs.map (·.id)).Nodup) : Reachable w (withClassifiers d cs) := by
  induction cs generalizing d with
  | nil => simpa [withClassifiers] using hreach
  | cons c cs ih =>
    obtain ⟨hc, hcs⟩ := List.forall_mem_cons.mp hids
    obtain ⟨hcfree, hcsfree⟩ := List.forall_mem_cons.mp hfree
    obtain ⟨hnew, hdistinct⟩ := List.nodup_cons.mp hdistinct
    rw [withClassifiers_cons]
    refine ih (hreach.withClassifier hc hcfree) hcs (fun a ha => ?_) hdistinct
    exact keyOf?_withClassifier (hcsfree a ha) fun heq => hnew (List.mem_map.mpr ⟨a, ha, heq⟩)

theorem ids_entered : (entered s records).map (·.id) =
    (List.range' (s.drawn + 1) records.length).map drawnId := by
  induction records generalizing s with
  | nil => rfl
  | cons r records ih =>
    rw [entered, List.map_cons, ih, List.length_cons, List.range'_succ, List.map_cons]
    rfl

theorem nodup_ids_entered : ((entered s records).map (·.id)).Nodup := by
  rw [ids_entered]
  exact (List.nodup_range' ..).map fun _ _ => drawnId_injective

theorem id_of_entered (hnumbers : Numbers w s) : ∀ c ∈ entered s records, c.id = w.id c.key := by
  induction records generalizing s with
  | nil => exact List.forall_mem_nil _
  | cons r records ih => exact List.forall_mem_cons.mpr ⟨(hnumbers 0).symm, ih hnumbers.next⟩

/-- A classifier that shows a record. -/
def Shows (r : TypeRecord) (c : Classifier) : Prop :=
  c = { classifierOf r with key := c.key, id := c.id }

/-- Each record is shown by the classifier that is entered for it. -/
theorem shows_entered : List.Forall₂ Shows records (entered s records) := by
  induction records generalizing s with
  | nil => exact .nil
  | cons r records ih => exact .cons rfl ih

theorem id_ne_of_entered : ∀ c ∈ entered s records, c.id ≠ "" := by
  induction records generalizing s with
  | nil => exact List.forall_mem_nil _
  | cons r records ih => exact List.forall_mem_cons.mpr ⟨drawnId_ne _, ih⟩

theorem box_of_entered : ∀ c ∈ entered s records, c.box = Box.standard := by
  induction records generalizing s with
  | nil => exact List.forall_mem_nil _
  | cons r records ih => exact List.forall_mem_cons.mpr ⟨rfl, ih⟩

end Entered

/-! ## Whole diagrams -/

/-- The diagram of some records. -/
def diagramOf (name : String) (records : List TypeRecord) (s : Supply) : Diagram :=
  withClassifiers (DiagramOf.empty name "" none none none s).1
    (entered { s with drawn := s.drawn + 1 } records)

section Whole

variable {name : String} {records : List TypeRecord} {s : Supply}

theorem unused_empty (s s' : Supply) : Unused (DiagramOf.empty name "" none none none s).1 s' :=
  fun _ _ => rfl

/-- A diagram of records is always made. -/
theorem ofRecords_eq : ofRecords name records s =
    .ok (diagramOf name records s, spent { s with drawn := s.drawn + 1 } records.length) :=
  addRecords_eq (unused_empty s { s with drawn := s.drawn + 1 })

theorem reachable_diagramOf {w : Identity String} (h : Numbers w { s with drawn := s.drawn + 1 }) :
    Reachable w (diagramOf name records s) :=
  reachable_withClassifiers (.new ..) (id_of_entered h) (fun _ _ => rfl) nodup_ids_entered

theorem classifiers_withClassifiers {d : Diagram} {cs : List Classifier} (h : d.elements = []) :
    (withClassifiers d cs).classifiers = cs := by
  rw [DiagramOf.classifiers, withClassifiers, h, List.nil_append, List.filterMap_map]
  exact List.filterMap_some

theorem relationships_withClassifiers {d : Diagram} {cs : List Classifier} (h : d.elements = []) :
    (withClassifiers d cs).relationships = [] := by
  rw [DiagramOf.relationships, withClassifiers, h, List.nil_append, List.filterMap_map]
  exact List.filterMap_eq_nil_iff.mpr fun _ _ => rfl

theorem classifiers_diagramOf : (diagramOf name records s).classifiers =
    entered { s with drawn := s.drawn + 1 } records := classifiers_withClassifiers rfl

theorem relationships_diagramOf : (diagramOf name records s).relationships = [] :=
  relationships_withClassifiers rfl

end Whole

end ClassAtlas.Assembly
