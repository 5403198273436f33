import ClassAtlas.Proofs.TextDocuments
import ClassAtlas.Proofs.WrittenFiles

/-! # Documents that are refused

All classifiers of a document are read before any of its relationships. So where every field can be read,
two things only speak against a document: a classifier with the id of an earlier one, and then, when all
classifiers are there, a relationship with an end that is none of them. Which of several faults is found
depends on the order of the classifiers and on that of the relationships, and not on how these are mixed. -/

namespace ClassAtlas.Document

open Files (Fails fails_bind fails_after)

/-! ## Elements that can be read -/

/-- The text under a key; where there is none, the empty one. -/
def textUnder (key : String) (fields : List (String × Value)) : String :=
  ((fields.lookup key).bind Value.text?).getD ""

/-- All fields of a classifier can be read, and its id is a text that is not empty. -/
structure LegibleClassifier (fields : List (String × Value)) : Prop where
  shown : ∃ c, ClassifierShown fields c
  id : ∃ id, fields.lookup "id" = some (.str id) ∧ id ≠ ""

/-- All fields of a relationship can be read, and the ids of its ends are texts. -/
structure LegibleRelationship (fields : List (String × Value)) : Prop where
  source : ∃ id, fields.lookup "source_id" = some (.str id)
  target : ∃ id, fields.lookup "target_id" = some (.str id)
  kind : ∃ word kind, fields.lookup "kind" = some word ∧
    wordOf RelationshipKind.ofWord? .relationshipKind word = .ok kind
  lineStyle : ∃ style, readLineStyle (presentOr fields "line_style" (.object [])) = .ok style
  controlPoints : ∃ points,
    Parts readControlPoint (valueOr fields "control_points" (.list [])) points

/-- All elements can be read, as far as they say what they are. -/
structure Legible (items : List (List (String × Value))) : Prop where
  classifiers : ∀ item ∈ items, saysClassifier item = true → LegibleClassifier item
  relationships : ∀ item ∈ items, saysRelationship item = true → LegibleRelationship item

/-- The ids of the classifiers among elements. -/
def idsOf (items : List (List (String × Value))) : List String :=
  (items.filter saysClassifier).map (textUnder "id")

/-- The ends of a relationship are among ids. -/
def EndsAmong (ids : List String) (fields : List (String × Value)) : Prop :=
  textUnder "source_id" fields ∈ ids ∧ textUnder "target_id" fields ∈ ids

/-- The id that a relationship is refused for: that of its source, unless that is known. -/
def lostEnd (ids : List String) (fields : List (String × Value)) : String :=
  if textUnder "source_id" fields ∈ ids then textUnder "target_id" fields
  else textUnder "source_id" fields

/-! ## Elements that are passed over -/

section Passing

variable {d : DiagramOf Value} {fields : List (String × Value)} {items : List (List (String × Value))}

theorem addClassifierElement_of_other (h : saysClassifier fields = false) :
    addClassifierElement d (.object fields) = pure d := by
  show (if saysClassifier fields = true then _ else (pure d : Making Fault (DiagramOf Value))) = _
  rw [h]
  rfl

theorem addRelationshipElement_of_other (h : saysRelationship fields = false) :
    addRelationshipElement d (.object fields) = pure d := by
  show (if saysRelationship fields = true then _ else (pure d : Making Fault (DiagramOf Value))) = _
  rw [h]
  rfl

/-- Elements that a search passes over might as well not be there. -/
theorem foldlM_filter {step : DiagramOf Value → Value → Making Fault (DiagramOf Value)}
    {wanted : List (String × Value) → Bool}
    (hother : ∀ d fields, wanted fields = false → step d (.object fields) = pure d) :
    (items.map .object).foldlM step d = ((items.filter wanted).map .object).foldlM step d := by
  induction items generalizing d with
  | nil => rfl
  | cons item items ih =>
    rw [List.map_cons, List.foldlM_cons]
    cases hwanted : wanted item with
    | false =>
      rw [hother d item hwanted, pure_bind, ih, List.filter_cons_of_neg (by simp [hwanted])]
    | true =>
      rw [List.filter_cons_of_pos hwanted, List.map_cons, List.foldlM_cons]
      exact congrArg (step d (.object item) >>= ·) (funext fun d => ih)

/-- A search fails where the step on an element fails. -/
theorem fails_foldlM {step : DiagramOf Value → Value → Making Fault (DiagramOf Value)}
    {before after : List Value} {v : Value} {d' : DiagramOf Value} {s t s' : Supply} {fault : Fault}
    (h : Makes (before.foldlM step d) s d' t) (hfails : Fails (step d' v) t fault s') :
    Fails ((before ++ v :: after).foldlM step d) s fault s' := by
  rw [List.foldlM_append]
  refine fails_after h ?_
  rw [List.foldlM_cons]
  exact fails_bind hfails

end Passing

/-! ## Ids in a diagram -/

/-- A diagram has classifiers with these ids. -/
structure Holds (ids : List String) (d : DiagramOf Value) (s : Supply) : Prop extends Arranged d s where
  ids : d.classifiers.map (·.id) = ids.map .str

section Ids

variable {d : DiagramOf Value} {s : Supply} {ids : List String} {id key : String}
  {fields : List (String × Value)}

theorem textUnder_eq (h : fields.lookup key = some (.str id)) : textUnder key fields = id := by
  unfold textUnder
  rw [h]
  rfl

theorem Holds.exists_of_mem (h : Holds ids d s) (hid : id ∈ ids) :
    ∃ c ∈ d.classifiers, c.id = .str id := by
  have hmem : Value.str id ∈ d.classifiers.map (·.id) := h.ids ▸ List.mem_map_of_mem hid
  exact List.mem_map.mp hmem

theorem Holds.keyOf?_eq_none (h : Holds ids d s) (hid : id ∉ ids) : d.keyOf? (.str id) = none := by
  refine h.toArranged.keyOf?_eq_none.mpr fun c hc => ?_
  have hmem : c.id ∈ ids.map Value.str := h.ids ▸ List.mem_map_of_mem hc
  obtain ⟨other, hother, hcid⟩ := List.mem_map.mp hmem
  rw [← hcid, str_finds, beq_eq_false_iff_ne]
  rintro rfl
  exact hid hother

theorem Holds.classifierById?_eq_none (h : Holds ids d s) (hid : id ∉ ids) :
    d.classifierById? (.str id) = none := by
  unfold DiagramOf.classifierById?
  rw [h.keyOf?_eq_none hid]
  rfl

/-- A new classifier cannot come under an id that is taken. -/
theorem Holds.addClassifier_eq_error {c : ClassifierOf Value} (h : Holds ids d s) (hid : id ∈ ids)
    (hc : c.id = .str id) (hnew : c.key = s.born) :
    d.addClassifier c = .error (.idTaken id d.name.shown) := by
  obtain ⟨old, hold, holdId⟩ := h.exists_of_mem hid
  have hkey : d.keyOf? c.id = some old.key := by rw [hc, ← holdId, h.keyOf?_self hold]
  have hne : (old.key == c.key) = false := by
    rw [beq_eq_false_iff_ne, hnew]
    exact Nat.ne_of_lt (h.bornClassifiers old hold)
  unfold DiagramOf.addClassifier DiagramOf.holdsClassifier
  rw [hkey, hc]
  simp only [Option.some_beq_some, hne, Option.isSome_some, if_true, Bool.false_eq_true, if_false]
  rfl

end Ids

/-! ## Classifiers -/

section Classifiers

variable {d : DiagramOf Value} {s : Supply} {ids : List String} {fields : List (String × Value)}
  {items : List (List (String × Value))}

/-- A classifier that can be read gets the id that it says, and a new key. -/
theorem LegibleClassifier.enrolled (h : LegibleClassifier fields) (s : Supply) :
    ∃ c c' s', ClassifierShown fields c ∧ s.enrolClassifier c = (c', s') ∧
      c'.id = .str (textUnder "id" fields) ∧ c'.key = s.born := by
  obtain ⟨c, shown⟩ := h.shown
  obtain ⟨id, hlookup, hne⟩ := h.id
  have hid : c.id = .str id := by
    rw [← shown.id]
    exact presentOr_of_kept (.inl (str_isTruthy.mpr hne)) hlookup
  have htruthy : c.id.isTruthy = true := by
    rw [hid]
    exact str_isTruthy.mpr hne
  refine ⟨c, _, _, shown, enrolClassifier_of_isTruthy htruthy, ?_, rfl⟩
  rw [textUnder_eq hlookup]
  exact hid

/-- A classifier with a new id comes into the diagram. -/
theorem classifier_comes (hsort : saysClassifier fields = true) (hlegible : LegibleClassifier fields)
    (h : Holds ids d s) (hnone : d.relationships = []) (hnew : textUnder "id" fields ∉ ids) :
    ∃ d' s', Makes (addClassifierElement d (.object fields)) s d' s' ∧
      Holds (ids ++ [textUnder "id" fields]) d' s' ∧ d'.relationships = [] ∧ SameHeader d d' := by
  obtain ⟨c, c', s', shown, henrolled, hid, -⟩ := hlegible.enrolled s
  have hstep : ClassifierStep d s (.object fields) { d with
      elements := d.elements ++ [.classifier c'], index := d.index ++ [(c'.id, c'.key)] } s' :=
    .added hsort shown henrolled (by rw [hid]; rfl) (by rw [hid, h.keyOf?_eq_none hnew])
  obtain ⟨harranged, hnone', hsame⟩ := hstep.arranged h.toArranged hnone
  refine ⟨_, s', makes_addClassifierElement.mpr hstep, ⟨harranged, ?_⟩, hnone', hsame⟩
  rw [classifiers_append_classifier, List.map_append, List.map_append, h.ids, List.map_singleton, hid,
    List.map_singleton]

/-- A classifier with an id that is taken is refused. -/
theorem classifier_refused (hsort : saysClassifier fields = true) (hlegible : LegibleClassifier fields)
    (h : Holds ids d s) (hold : textUnder "id" fields ∈ ids) :
    ∃ s', Fails (addClassifierElement d (.object fields)) s
      (.refused (.idTaken (textUnder "id" fields) d.name.shown)) s' := by
  obtain ⟨c, c', s', shown, henrolled, hid, hkey⟩ := hlegible.enrolled s
  have hmake : Makes (makeClassifier (.object fields)) s c' s' :=
    makes_bind.mpr ⟨c, s, makes_lift.mpr ⟨readClassifier_eq_ok.mpr ⟨fields, rfl, shown⟩, rfl⟩,
      makes_modifyGet.mpr henrolled⟩
  have hhashed : asKey c'.id = .ok c'.id := by
    rw [hid]
    rfl
  have hlooked : Makes (discard (liftM (asKey c'.id) : Making Fault Value)) s' ⟨⟩ s' :=
    makes_discard.mpr ⟨⟨_, hhashed⟩, rfl⟩
  refine ⟨s', ?_⟩
  show Fails (if saysClassifier fields = true then _ else _) _ _ _
  rw [hsort]
  refine fails_after hmake (fails_after hlooked ?_)
  rw [h.addClassifier_eq_error hold hid hkey]
  rfl

/-- Classifiers with new ids, all different, come into the diagram. -/
theorem classifiers_come (hlegible : ∀ item ∈ items, saysClassifier item = true ∧ LegibleClassifier item)
    (h : Holds ids d s) (hnone : d.relationships = [])
    (hnodup : (ids ++ items.map (textUnder "id")).Nodup) :
    ∃ d' s', Makes ((items.map .object).foldlM addClassifierElement d) s d' s' ∧
      Holds (ids ++ items.map (textUnder "id")) d' s' ∧ SameHeader d d' := by
  induction items generalizing d s ids with
  | nil =>
    refine ⟨d, s, makes_pure.mpr ⟨rfl, rfl⟩, ?_, rfl⟩
    rw [List.map_nil, List.append_nil]
    exact h
  | cons item items ih =>
    obtain ⟨hsort, hitem⟩ := hlegible item List.mem_cons_self
    have hids : ids ++ (item :: items).map (textUnder "id") =
        (ids ++ [textUnder "id" item]) ++ items.map (textUnder "id") := by
      rw [List.map_cons, List.append_cons]
    rw [hids] at hnodup ⊢
    have hnew : textUnder "id" item ∉ ids := by
      have hfirst := hnodup.of_append_left
      exact fun hold => (List.disjoint_of_nodup_append hfirst) hold List.mem_cons_self
    obtain ⟨d₁, s₁, hmade, h₁, hnone₁, hsame₁⟩ := classifier_comes hsort hitem h hnone hnew
    obtain ⟨d₂, s₂, hrest, h₂, hsame₂⟩ :=
      ih (fun item hitem => hlegible item (List.mem_cons_of_mem _ hitem)) h₁ hnone₁ hnodup
    exact ⟨d₂, s₂, makes_bind.mpr ⟨d₁, s₁, hmade, hrest⟩, h₂, hsame₁.trans hsame₂⟩

end Classifiers

/-! ## Relationships -/

section Relationships

variable {d : DiagramOf Value} {s : Supply} {ids : List String} {fields : List (String × Value)}
  {items : List (List (String × Value))}

/-- A relationship between classifiers of the diagram comes into it. -/
theorem relationship_comes (hsort : saysRelationship fields = true)
    (hlegible : LegibleRelationship fields) (h : Holds ids d s) (hends : EndsAmong ids fields) :
    ∃ d' s', Makes (addRelationshipElement d (.object fields)) s d' s' ∧ Holds ids d' s' := by
  obtain ⟨sourceId, hsourceId⟩ := hlegible.source
  obtain ⟨targetId, htargetId⟩ := hlegible.target
  obtain ⟨word, kind, hword, hkind⟩ := hlegible.kind
  obtain ⟨lineStyle, hlineStyle⟩ := hlegible.lineStyle
  obtain ⟨points, hpoints⟩ := hlegible.controlPoints
  rw [EndsAmong, textUnder_eq hsourceId, textUnder_eq htargetId] at hends
  obtain ⟨a, ha, haId⟩ := h.exists_of_mem hends.1
  obtain ⟨b, hb, hbId⟩ := h.exists_of_mem hends.2
  let r : RelationshipOf Value := {
    kind, lineStyle
    key := 0
    id := presentOr fields "id" .null
    name := presentOr fields "name" (.str "")
    source := a.toEndpoint
    target := b.toEndpoint
    sourceRole := optional fields "source_role"
    targetRole := optional fields "target_role"
    sourceMultiplicity := optional fields "source_multiplicity"
    targetMultiplicity := optional fields "target_multiplicity"
    sourceTooltip := optional fields "source_tooltip"
    targetTooltip := optional fields "target_tooltip"
    controlPoints := points }
  have shown : RelationshipShown d fields r := {
    key := rfl
    id := rfl
    name := rfl
    source := ⟨_, a, hsourceId, rfl, haId ▸ h.classifierById?_self ha, rfl⟩
    target := ⟨_, b, htargetId, rfl, hbId ▸ h.classifierById?_self hb, rfl⟩
    kind := ⟨word, hword, hkind⟩
    sourceRole := rfl
    targetRole := rfl
    sourceMultiplicity := rfl
    targetMultiplicity := rfl
    sourceTooltip := rfl
    targetTooltip := rfl
    lineStyle := hlineStyle
    controlPoints := hpoints }
  obtain ⟨r', s', henrolled⟩ : ∃ r' s', s.enrolRelationship r = (r', s') := ⟨_, _, rfl⟩
  have hsource : r'.source = a.toEndpoint := by
    cases henrolled
    rfl
  have htarget : r'.target = b.toEndpoint := by
    cases henrolled
    rfl
  have hstep : RelationshipStep d s (.object fields)
      { d with elements := d.elements ++ [.relationship r'] } s' :=
    .added hsort shown henrolled (by rw [hsource]; exact h.holdsClassifier ha)
      (by rw [htarget]; exact h.holdsClassifier hb)
      (by rw [(enrolRelationship_born henrolled).1, h.holdsRelationship_born])
  refine ⟨_, s', makes_addRelationshipElement.mpr hstep, (hstep.arranged h.toArranged).1, ?_⟩
  rw [classifiers_append_relationship, h.ids]

/-- A relationship with an end that is not in the diagram is refused for it. -/
theorem relationship_refused (hsort : saysRelationship fields = true)
    (hlegible : LegibleRelationship fields) (h : Holds ids d s) (hends : ¬ EndsAmong ids fields) :
    Fails (addRelationshipElement d (.object fields)) s
      (.unknownEnd (valueOr fields "name" (.str "")).shown (lostEnd ids fields)) s := by
  obtain ⟨sourceId, hsourceId⟩ := hlegible.source
  obtain ⟨targetId, htargetId⟩ := hlegible.target
  have hread : readRelationship d (.object fields) =
      .error (.unknownEnd (valueOr fields "name" (.str "")).shown (lostEnd ids fields)) := by
    rw [EndsAmong, textUnder_eq hsourceId, textUnder_eq htargetId] at hends
    rw [lostEnd, textUnder_eq hsourceId, textUnder_eq htargetId]
    simp only [readRelationship, require_object.mpr hsourceId, require_object.mpr htargetId, ok_bind,
      asKey, fieldsOf]
    by_cases hsource : sourceId ∈ ids
    · obtain ⟨a, ha, haId⟩ := h.exists_of_mem hsource
      rw [← haId, h.classifierById?_self ha,
        h.classifierById?_eq_none fun htarget => hends ⟨hsource, htarget⟩, if_pos hsource]
      rfl
    · rw [h.classifierById?_eq_none hsource, if_neg hsource]
      rfl
  show Fails (if saysRelationship fields = true then _ else _) _ _ _
  rw [hsort]
  refine fails_bind (fails_bind ?_)
  rw [hread]
  rfl

/-- Relationships between classifiers of the diagram come into it. -/
theorem relationships_come
    (hlegible : ∀ item ∈ items, saysRelationship item = true ∧ LegibleRelationship item)
    (h : Holds ids d s) (hends : ∀ item ∈ items, EndsAmong ids item) :
    ∃ d' s', Makes ((items.map .object).foldlM addRelationshipElement d) s d' s' ∧ Holds ids d' s' := by
  induction items generalizing d s with
  | nil => exact ⟨d, s, makes_pure.mpr ⟨rfl, rfl⟩, h⟩
  | cons item items ih =>
    obtain ⟨hitem, hitems⟩ := List.forall_mem_cons.mp hends
    obtain ⟨hsort, hlegibleItem⟩ := hlegible item List.mem_cons_self
    obtain ⟨d₁, s₁, hmade, h₁⟩ := relationship_comes hsort hlegibleItem h hitem
    obtain ⟨d₂, s₂, hrest, h₂⟩ :=
      ih (fun item hitem => hlegible item (List.mem_cons_of_mem _ hitem)) h₁ hitems
    exact ⟨d₂, s₂, makes_bind.mpr ⟨d₁, s₁, hmade, hrest⟩, h₂⟩

end Relationships

/-! ## Whole documents -/

/-- How reading ends for elements that can be read, in a document of some name. -/
structure Verdict (items : List (List (String × Value))) (name : String)
    (result : Except Fault (DiagramOf Value)) : Prop where
  /-- There is a diagram exactly if no id comes twice and every end is a classifier of the document. -/
  reads : (∃ d, result = .ok d) ↔ (idsOf items).Nodup ∧
    ∀ r ∈ items.filter saysRelationship, EndsAmong (idsOf items) r
  /-- If an id comes twice, the first classifier with an id that came before is refused. -/
  clash : ¬ (idsOf items).Nodup → ∃ before c after,
    items.filter saysClassifier = before ++ c :: after ∧ (before.map (textUnder "id")).Nodup ∧
      textUnder "id" c ∈ before.map (textUnder "id") ∧
      result = .error (.refused (.idTaken (textUnder "id" c) name))
  /-- Otherwise the first relationship with an unknown end is refused. -/
  dangling : (idsOf items).Nodup →
    (¬ ∀ r ∈ items.filter saysRelationship, EndsAmong (idsOf items) r) → ∃ before r after,
      items.filter saysRelationship = before ++ r :: after ∧
        (∀ other ∈ before, EndsAmong (idsOf items) other) ∧ ¬ EndsAmong (idsOf items) r ∧
        result = .error (.unknownEnd (valueOr r "name" (.str "")).shown (lostEnd (idsOf items) r))

/-- Two documents say the same in their headers, and have the same classifiers and the same relationships,
each in the same order. -/
structure Remixed (fields fields' : List (String × Value)) (items items' : List (List (String × Value))) :
    Prop where
  header : ∀ key, key ≠ "elements" → fields'.lookup key = fields.lookup key
  classifiers : items'.filter saysClassifier = items.filter saysClassifier
  relationships : items'.filter saysRelationship = items.filter saysRelationship

section Lists

variable {α β : Type} {xs : List α}

/-- Where something comes twice, there is a first item that came before. -/
theorem exists_first_repeated {f : α → β} (h : ¬ (xs.map f).Nodup) :
    ∃ before x after, xs = before ++ x :: after ∧ (before.map f).Nodup ∧ f x ∈ before.map f := by
  induction xs using List.reverseRecOn with
  | nil => exact absurd .nil h
  | append_singleton xs x ih =>
    by_cases hxs : (xs.map f).Nodup
    · refine ⟨xs, x, [], rfl, hxs, ?_⟩
      by_contra hnew
      refine h ?_
      rw [List.map_append, List.map_singleton]
      exact List.nodup_append_comm.mp (List.nodup_cons.mpr ⟨hnew, hxs⟩)
    · obtain ⟨before, y, after, rfl, hbefore, hy⟩ := ih hxs
      exact ⟨before, y, after ++ [x], by simp, hbefore, hy⟩

/-- Where not all items have a property, there is a first one that has it not. -/
theorem exists_first_not {p : α → Prop} (h : ¬ ∀ x ∈ xs, p x) :
    ∃ before x after, xs = before ++ x :: after ∧ (∀ y ∈ before, p y) ∧ ¬ p x := by
  induction xs with
  | nil => exact absurd (List.forall_mem_nil _) h
  | cons x xs ih =>
    by_cases hx : p x
    · obtain ⟨before, y, after, rfl, hbefore, hy⟩ :=
        ih fun hxs => h (List.forall_mem_cons.mpr ⟨hx, hxs⟩)
      exact ⟨x :: before, y, after, rfl, List.forall_mem_cons.mpr ⟨hx, hbefore⟩, hy⟩
    · exact ⟨[], x, xs, rfl, List.forall_mem_nil _, hx⟩

end Lists

section Whole

variable {fields fields' : List (String × Value)} {items items' : List (List (String × Value))}
  {header : DiagramOf Value} {s s₀ : Supply}

/-- The work on the elements of a document: its classifiers, then its relationships. -/
def readItems (classifiers relationships : List (List (String × Value))) (header : DiagramOf Value) :
    Making Fault (DiagramOf Value) := do
  let d ← (classifiers.map .object).foldlM addClassifierElement header
  (relationships.map .object).foldlM addRelationshipElement d

/-- How classifiers and relationships are mixed makes no difference. -/
theorem run_read (shown : HeaderShown fields s header s₀)
    (helements : valueOr fields "elements" (.list []) = .list (items.map .object)) :
    (read (.object fields)).run.run s =
      (readItems (items.filter saysClassifier) (items.filter saysRelationship) header).run.run s₀ := by
  have hheader : Makes (readHeader (.object fields)) s header s₀ :=
    makes_readHeader.mpr ⟨fields, rfl, shown⟩
  have hitems : (read (.object fields)).run.run s = ((items.map .object).foldlM addClassifierElement
      header >>= fun d => (items.map .object).foldlM addRelationshipElement d).run.run s₀ := by
    rw [read, run_bind_eq, hheader]
    show ((liftM (partsOf (valueOr fields "elements" (.list []))) : Making Fault (List Value)) >>=
      _).run.run s₀ = _
    rw [helements]
    rfl
  rw [hitems, foldlM_filter fun _ _ => addClassifierElement_of_other]
  refine congrArg (fun work : Making Fault _ => work.run.run s₀) (congrArg (_ >>= ·) (funext fun d => ?_))
  exact foldlM_filter fun _ _ => addRelationshipElement_of_other

/-- A header is read alike wherever its keys are. -/
theorem HeaderShown.of_lookup (h : HeaderShown fields s header s₀)
    (hsame : ∀ key, key ≠ "elements" → fields'.lookup key = fields.lookup key) :
    HeaderShown fields' s header s₀ := by
  have hpresent : ∀ key default, key ≠ "elements" →
      presentOr fields' key default = presentOr fields key default := by
    intro key default hkey
    rw [presentOr, presentOr, hsame key hkey]
  have hoptional : ∀ key, key ≠ "elements" → optional fields' key = optional fields key := by
    intro key hkey
    rw [optional, optional, hsame key hkey]
  have hvalue : ∀ key default, key ≠ "elements" →
      valueOr fields' key default = valueOr fields key default := by
    intro key default hkey
    rw [valueOr, valueOr, hsame key hkey]
  exact {
    name := by rw [hsame _ (by decide), h.name]
    description := by rw [hpresent _ _ (by decide), h.description]
    author := by rw [hoptional _ (by decide), h.author]
    version := by rw [hoptional _ (by decide), h.version]
    showGrid := by rw [flag, hvalue _ _ (by decide), ← flag, h.showGrid]
    snapToGrid := by rw [flag, hvalue _ _ (by decide), ← flag, h.snapToGrid]
    gridSize := by rw [hvalue _ _ (by decide), h.gridSize]
    backgroundColor := by rw [hpresent _ _ (by decide), h.backgroundColor]
    begun := by rw [hoptional _ (by decide), h.begun]
    elements := h.elements
    index := h.index }

/-- Items are read up to the first classifier with an id that came before. -/
theorem readItems_clash {before after rs : List (List (String × Value))} {c : List (String × Value)}
    (hlegible : ∀ item ∈ before ++ c :: after, saysClassifier item = true ∧ LegibleClassifier item)
    (h : Holds [] header s) (hnone : header.relationships = [])
    (hnodup : (before.map (textUnder "id")).Nodup)
    (hold : textUnder "id" c ∈ before.map (textUnder "id")) :
    ∃ s', Fails (readItems (before ++ c :: after) rs header) s
      (.refused (.idTaken (textUnder "id" c) header.name.shown)) s' := by
  obtain ⟨d, t, hmade, hd, hsame⟩ := classifiers_come
    (fun item hitem => hlegible item (List.mem_append_left _ hitem)) h hnone hnodup
  obtain ⟨hsort, hc⟩ := hlegible c (List.mem_append_right _ List.mem_cons_self)
  obtain ⟨s', hfails⟩ := classifier_refused hsort hc hd hold
  rw [show d.name = header.name by rw [hsame]] at hfails
  refine ⟨s', ?_⟩
  rw [readItems, List.map_append, List.map_cons]
  exact fails_bind (fails_foldlM hmade hfails)

/-- Items are read up to the first relationship with an unknown end. -/
theorem readItems_dangling {cs before after : List (List (String × Value))} {r : List (String × Value)}
    (hclassifiers : ∀ item ∈ cs, saysClassifier item = true ∧ LegibleClassifier item)
    (hrelationships : ∀ item ∈ before ++ r :: after,
      saysRelationship item = true ∧ LegibleRelationship item)
    (h : Holds [] header s) (hnone : header.relationships = [])
    (hnodup : (cs.map (textUnder "id")).Nodup)
    (hbefore : ∀ item ∈ before, EndsAmong (cs.map (textUnder "id")) item)
    (hlost : ¬ EndsAmong (cs.map (textUnder "id")) r) :
    ∃ s', Fails (readItems cs (before ++ r :: after) header) s
      (.unknownEnd (valueOr r "name" (.str "")).shown (lostEnd (cs.map (textUnder "id")) r)) s' := by
  obtain ⟨d, t, hmade, hd, -⟩ := classifiers_come hclassifiers h hnone hnodup
  obtain ⟨d', t', hmade', hd'⟩ := relationships_come
    (fun item hitem => hrelationships item (List.mem_append_left _ hitem)) hd hbefore
  obtain ⟨hsort, hr⟩ := hrelationships r (List.mem_append_right _ List.mem_cons_self)
  have hfails := relationship_refused hsort hr hd' hlost
  refine ⟨t', ?_⟩
  rw [readItems, List.map_append, List.map_cons]
  exact fails_after hmade (fails_foldlM hmade' hfails)

/-- Items without a fault are read. -/
theorem readItems_sound {cs rs : List (List (String × Value))}
    (hclassifiers : ∀ item ∈ cs, saysClassifier item = true ∧ LegibleClassifier item)
    (hrelationships : ∀ item ∈ rs, saysRelationship item = true ∧ LegibleRelationship item)
    (h : Holds [] header s) (hnone : header.relationships = [])
    (hnodup : (cs.map (textUnder "id")).Nodup)
    (hends : ∀ item ∈ rs, EndsAmong (cs.map (textUnder "id")) item) :
    ∃ d s', Makes (readItems cs rs header) s d s' := by
  obtain ⟨d, t, hmade, hd, -⟩ := classifiers_come hclassifiers h hnone hnodup
  obtain ⟨d', t', hmade', -⟩ := relationships_come hrelationships hd hends
  exact ⟨d', t', makes_bind.mpr ⟨d, t, hmade, hmade'⟩⟩

/-- A reading that fails for the first fault, and else gives a diagram, ends as a verdict says. -/
theorem Verdict.of_faults {name : String} {result : Except Fault (DiagramOf Value)}
    (hsound : (idsOf items).Nodup → (∀ r ∈ items.filter saysRelationship, EndsAmong (idsOf items) r) →
      ∃ d, result = .ok d)
    (hclash : ∀ before c after, items.filter saysClassifier = before ++ c :: after →
      (before.map (textUnder "id")).Nodup → textUnder "id" c ∈ before.map (textUnder "id") →
        result = .error (.refused (.idTaken (textUnder "id" c) name)))
    (hdangling : (idsOf items).Nodup → ∀ before r after,
      items.filter saysRelationship = before ++ r :: after →
        (∀ other ∈ before, EndsAmong (idsOf items) other) → ¬ EndsAmong (idsOf items) r →
          result = .error (.unknownEnd (valueOr r "name" (.str "")).shown (lostEnd (idsOf items) r))) :
    Verdict items name result := by
  refine ⟨⟨fun hreads => ?_, fun hgiven => hsound hgiven.1 hgiven.2⟩, fun htwice => ?_, fun hnodup hlost => ?_⟩
  · obtain ⟨d, hd⟩ := hreads
    have hnodup : (idsOf items).Nodup := by
      by_contra htwice
      obtain ⟨before, c, after, hsplit, hbefore, hold⟩ := exists_first_repeated htwice
      cases hd.symm.trans (hclash before c after hsplit hbefore hold)
    refine ⟨hnodup, ?_⟩
    by_contra hlost
    obtain ⟨before, r, after, hsplit, hbefore, hr⟩ := exists_first_not hlost
    cases hd.symm.trans (hdangling hnodup before r after hsplit hbefore hr)
  · obtain ⟨before, c, after, hsplit, hbefore, hold⟩ := exists_first_repeated htwice
    exact ⟨before, c, after, hsplit, hbefore, hold, hclash before c after hsplit hbefore hold⟩
  · obtain ⟨before, r, after, hsplit, hbefore, hr⟩ := exists_first_not hlost
    exact ⟨before, r, after, hsplit, hbefore, hr, hdangling hnodup before r after hsplit hbefore hr⟩

theorem verdict_readItems (hlegible : Legible items) (h : Holds [] header s)
    (hnone : header.relationships = []) : Verdict items header.name.shown
      ((readItems (items.filter saysClassifier) (items.filter saysRelationship) header).run.run s).1 := by
  have hclassifiers : ∀ item ∈ items.filter saysClassifier,
      saysClassifier item = true ∧ LegibleClassifier item := by
    intro item hitem
    obtain ⟨hmem, hsort⟩ := List.mem_filter.mp hitem
    exact ⟨hsort, hlegible.classifiers item hmem hsort⟩
  have hrelationships : ∀ item ∈ items.filter saysRelationship,
      saysRelationship item = true ∧ LegibleRelationship item := by
    intro item hitem
    obtain ⟨hmem, hsort⟩ := List.mem_filter.mp hitem
    exact ⟨hsort, hlegible.relationships item hmem hsort⟩
  refine .of_faults (fun hnodup hends => ?_) (fun before c after hsplit hnodup hold => ?_)
    fun hnodup before r after hsplit hbefore hr => ?_
  · obtain ⟨d, s', hmade⟩ := readItems_sound hclassifiers hrelationships h hnone hnodup hends
    exact ⟨d, congrArg Prod.fst hmade⟩
  · rw [hsplit] at hclassifiers ⊢
    obtain ⟨s', hfails⟩ := readItems_clash hclassifiers h hnone hnodup hold
    exact congrArg Prod.fst hfails
  · rw [hsplit] at hrelationships ⊢
    obtain ⟨s', hfails⟩ := readItems_dangling hclassifiers hrelationships h hnone hnodup hbefore hr
    exact congrArg Prod.fst hfails

/-- A document whose header and elements can be read is refused exactly if an id comes twice or an end is
unknown, and for the first such fault; any other mixture of the same classifiers and relationships, each
in their order, comes to the same. -/
theorem read_verdict (shown : HeaderShown fields s header s₀)
    (helements : valueOr fields "elements" (.list []) = .list (items.map .object))
    (hlegible : Legible items) :
    Verdict items header.name.shown ((read (.object fields)).run.run s).1 ∧
      ∀ fields' items', Remixed fields fields' items items' →
        valueOr fields' "elements" (.list []) = .list (items'.map .object) →
          (read (.object fields')).run.run s = (read (.object fields)).run.run s := by
  have hnone : header.relationships = [] := by
    rw [DiagramOf.relationships, shown.elements]
    rfl
  have hempty : Holds [] header s₀ := by
    refine ⟨arranged_of_empty shown.elements shown.index, ?_⟩
    rw [DiagramOf.classifiers, shown.elements]
    rfl
  refine ⟨?_, fun fields' items' hmixed helements' => ?_⟩
  · rw [run_read shown helements]
    exact verdict_readItems hlegible hempty hnone
  · rw [run_read (shown.of_lookup hmixed.header) helements', run_read shown helements,
      hmixed.classifiers, hmixed.relationships]

/-- A relationship before its source and without its target is refused for the target, and so it is behind
the source. -/
theorem read_verdict_forward :
    let use : List (String × Value) := [("element_type", .str "relationship"), ("name", .str "use"),
      ("source_id", .str "s"), ("target_id", .str "g"), ("kind", .str "dependency")]
    let shape : List (String × Value) := [("name", .str "Shape"), ("id", .str "s")]
    let document (items : List (List (String × Value))) : List (String × Value) :=
      [("name", .str "shapes"), ("elements", .list (items.map .object))]
    let result := (read (.object (document [use, shape]))).run.run {}
    (∃ header s₀, HeaderShown (document [use, shape]) {} header s₀) ∧ Legible [use, shape] ∧
      Verdict [use, shape] "shapes" result.1 ∧ result.1 = .error (.unknownEnd "use" "g") ∧
      (read (.object (document [shape, use]))).run.run {} = result := by
  intro use shape document result
  obtain ⟨header, s₀, hread⟩ : ∃ header s₀,
      Makes (readHeader (.object (document [use, shape]))) {} header s₀ := ⟨_, _, rfl⟩
  obtain ⟨_, hfields, shown⟩ := makes_readHeader.mp hread
  cases hfields
  have hname : header.name = .str "shapes" := (Option.some.inj shown.name).symm
  have hlegible : Legible [use, shape] := by
    constructor
    · intro item hitem hsort
      obtain rfl | rfl : item = use ∨ item = shape := by simpa using hitem
      · cases hsort
      · obtain ⟨_, hfields, hshown⟩ := readClassifier_eq_ok.mp
          (rfl : readClassifier (.object shape) = .ok _)
        cases hfields
        exact ⟨⟨_, hshown⟩, ⟨"s", rfl, by decide⟩⟩
    · intro item hitem hsort
      obtain rfl | rfl : item = use ∨ item = shape := by simpa using hitem
      · exact ⟨⟨"s", rfl⟩, ⟨"g", rfl⟩, ⟨_, .dependency, rfl, rfl⟩, ⟨_, rfl⟩, ⟨[], [], rfl, .nil⟩⟩
      · cases hsort
  obtain ⟨hverdict, hmixed⟩ := read_verdict shown rfl hlegible
  rw [hname] at hverdict
  have hremixed : Remixed (document [use, shape]) (document [shape, use]) [use, shape] [shape, use] := by
    refine ⟨fun key hkey => ?_, rfl, rfl⟩
    simp only [document, List.lookup_cons, beq_eq_false_iff_ne.mpr hkey]
  exact ⟨⟨header, s₀, shown⟩, hlegible, hverdict, rfl, hmixed _ _ hremixed rfl⟩

end Whole

end ClassAtlas.Document
