import ClassAtlas.Analysis
import ClassAtlas.Proofs.BuiltDiagrams
import ClassAtlas.Proofs.GridPlaces
import ClassAtlas.Proofs.InferredEdges

/-! # Analyzed diagrams

An analysis never fails once it has its sources. All edges that it finds lead between classifiers that
it has entered, so merging takes them one after another. What comes of it is a diagram with its
classifiers first, which a store keeps as it is. -/

namespace ClassAtlas

/-- A diagram with more relationships at its end. -/
def DiagramOf.withRelationships {τ : Type} (d : DiagramOf τ) (rs : List (RelationshipOf τ)) : DiagramOf τ :=
  { d with elements := d.elements ++ rs.map .relationship }

section Relationships

variable {τ : Type} {d : DiagramOf τ} {r : RelationshipOf τ} {rs : List (RelationshipOf τ)}

namespace DiagramOf

theorem withRelationships_nil : d.withRelationships [] = d := by
  rw [withRelationships, List.map_nil, List.append_nil]

theorem withRelationships_cons :
    d.withRelationships (r :: rs) = (d.withRelationships [r]).withRelationships rs := by
  simp [withRelationships]

theorem classifiers_withRelationships : (d.withRelationships rs).classifiers = d.classifiers := by
  have hnone : (rs.map ElementOf.relationship).filterMap (·.classifier?) = [] := by
    simp [ElementOf.classifier?]
  rw [classifiers, withRelationships, List.filterMap_append, hnone, List.append_nil, classifiers]

/-- A relationship that comes is in the way of no key but its own. -/
theorem holdsRelationship_withRelationship {key : Nat} (hnew : d.holdsRelationship key = false)
    (hne : r.key ≠ key) : (d.withRelationships [r]).holdsRelationship key = false := by
  unfold holdsRelationship at hnew ⊢
  simp [withRelationships, hnew, hne]

theorem holdsRelationship_of_nil (h : d.relationships = []) (key : Nat) :
    d.holdsRelationship key = false := by
  rw [holdsRelationship, List.any_eq_false]
  intro e he hkey
  obtain ⟨r, rfl, -⟩ := isRelationship_iff.mp hkey
  have hr := mem_relationships.mpr he
  rw [h] at hr
  cases hr

theorem addRelationship_eq [Label τ] (hsource : d.holdsClassifier r.source.id r.source.key = true)
    (htarget : d.holdsClassifier r.target.id r.target.key = true)
    (hnew : d.holdsRelationship r.key = false) : d.addRelationship r = .ok (d.withRelationships [r]) := by
  rw [addRelationship, hsource, htarget, hnew]
  rfl

end DiagramOf

/-- Relationships between classifiers of a diagram can be added. -/
theorem Reachable.withRelationships [Label τ] [EquivBEq τ] {w : Identity τ} (h : Reachable w d)
    (hends : ∀ r ∈ rs, ∃ a ∈ d.classifiers, ∃ b ∈ d.classifiers,
      r.source = a.toEndpoint ∧ r.target = b.toEndpoint)
    (hw : ∀ r ∈ rs, r.source.key = w.source r.key ∧ r.target.key = w.target r.key)
    (hnames : ∀ r ∈ rs, Label.isVoid r.name = false) (hkeys : (rs.map (·.key)).Nodup)
    (hnew : ∀ r ∈ rs, d.holdsRelationship r.key = false) : Reachable w (d.withRelationships rs) := by
  induction rs generalizing d with
  | nil => rwa [DiagramOf.withRelationships_nil]
  | cons r rs ih =>
    obtain ⟨⟨a, ha, b, hb, hsource, htarget⟩, hends⟩ := List.forall_mem_cons.mp hends
    obtain ⟨hwr, hw⟩ := List.forall_mem_cons.mp hw
    obtain ⟨hname, hnames⟩ := List.forall_mem_cons.mp hnames
    obtain ⟨hapart, hkeys⟩ := List.nodup_cons.mp hkeys
    obtain ⟨hfree, hnew⟩ := List.forall_mem_cons.mp hnew
    have hadded : Reachable w (d.withRelationships [r]) := by
      rw [hsource, htarget] at hwr
      exact h.withRelationship ha hb hsource htarget hwr hname hfree
    rw [DiagramOf.withRelationships_cons]
    refine ih hadded ?_ hw hnames hkeys fun other hother => ?_
    · rwa [DiagramOf.classifiers_withRelationships]
    · exact DiagramOf.holdsRelationship_withRelationship (hnew other hother) fun heq =>
        hapart (List.mem_map.mpr ⟨other, hother, heq.symm⟩)

end Relationships

/-! ## Merging -/

/-- Relationships between some classifiers, told apart by their keys, each with an id and a name. -/
structure Joining (cs : List Classifier) (rs : List Relationship) : Prop where
  ends : ∀ r ∈ rs, ∃ a ∈ cs, ∃ b ∈ cs, r.source = a.toEndpoint ∧ r.target = b.toEndpoint
  ids : ∀ r ∈ rs, r.id ≠ ""
  names : ∀ r ∈ rs, r.name ≠ ""
  keys : (rs.map (·.key)).Nodup

theorem Joining.sublist {cs : List Classifier} {rs taken : List Relationship} (h : Joining cs rs)
    (hsub : taken.Sublist rs) : Joining cs taken where
  ends := fun r hr => h.ends r (hsub.subset hr)
  ids := fun r hr => h.ids r (hsub.subset hr)
  names := fun r hr => h.names r (hsub.subset hr)
  keys := h.keys.sublist (hsub.map _)

namespace Inference

section Merging

variable {es : List Edge} {supply : Supply} {w : Identity String} {d : Diagram} {rs : List Relationship}

theorem keys_enrolAll : (enrolAll supply es).1.map (·.key) = List.range' supply.born es.length := by
  induction es generalizing supply with
  | nil => rfl
  | cons e es ih => exact congrArg (supply.born :: ·) ih

theorem labels_enrolAll : ∀ r ∈ (enrolAll supply es).1, r.id ≠ "" ∧ r.name ≠ "" := by
  induction es generalizing supply with
  | nil => exact List.forall_mem_nil _
  | cons e es ih =>
    refine List.forall_mem_cons.mpr ⟨⟨?_, ?_⟩, ih⟩
    · show "id-" ++ toString (supply.drawn + 1) ≠ ""
      simp
    · show Label.shown e.source.name ++ "->" ++ Label.shown e.target.name ≠ ""
      simp

/-- What inference finds are relationships between the classifiers of the diagram. -/
theorem joining_analyze (hreach : Reachable w d) (searchOrder : List String) (withSupertypes : Bool) :
    Joining d.classifiers (analyze d searchOrder withSupertypes supply).1.relationships where
  ends := fun r hr => by
    obtain ⟨a, ha, b, hb, hsource, htarget, -⟩ :=
      (exact_of_ends hreach (found_ends hreach searchOrder withSupertypes supply)).proper r hr
    exact ⟨a, ha, b, hb, hsource, htarget⟩
  ids := fun r hr => (labels_enrolAll r hr).1
  names := fun r hr => (labels_enrolAll r hr).2
  keys := by
    have hkeys : (analyze d searchOrder withSupertypes supply).1.relationships.map (·.key) = _ :=
      keys_enrolAll
    rw [hkeys]
    exact List.nodup_range' ..

/-- Merging takes every relationship between classifiers of the diagram, unless there is one like it. -/
theorem mergeFrom_eq {existing : List (String × String × RelationshipKind)} {added : Nat}
    (hheld : ∀ r ∈ rs, d.holdsClassifier r.source.id r.source.key = true ∧
      d.holdsClassifier r.target.id r.target.key = true)
    (hkeys : (rs.map (·.key)).Nodup) (hnew : ∀ r ∈ rs, d.holdsRelationship r.key = false) :
    mergeFrom existing added d rs = ⟨d.withRelationships (firstBy identity existing rs),
      added + (firstBy identity existing rs).length, none⟩ := by
  induction rs generalizing existing added d with
  | nil =>
    rw [firstBy, DiagramOf.withRelationships_nil]
    rfl
  | cons r rs ih =>
    obtain ⟨⟨hsource, htarget⟩, hheld⟩ := List.forall_mem_cons.mp hheld
    obtain ⟨hapart, hkeys⟩ := List.nodup_cons.mp hkeys
    obtain ⟨hfree, hnew⟩ := List.forall_mem_cons.mp hnew
    rw [mergeFrom, firstBy]
    split
    · exact ih hheld hkeys hnew
    · have hlater : ∀ other ∈ rs, (d.withRelationships [r]).holdsRelationship other.key = false :=
        fun other hother => DiagramOf.holdsRelationship_withRelationship (hnew other hother) fun heq =>
          hapart (List.mem_map.mpr ⟨other, hother, heq.symm⟩)
      rw [DiagramOf.addRelationship_eq hsource htarget hfree]
      dsimp only
      rw [ih (d := d.withRelationships [r]) hheld hkeys hlater, ← DiagramOf.withRelationships_cons,
        List.length_cons, Nat.add_assoc, Nat.add_comm 1]

/-- New relationships between its classifiers can be merged into a diagram. -/
theorem merge_joining (hreach : Reachable w d) (h : Joining d.classifiers rs)
    (hnew : ∀ r ∈ rs, d.holdsRelationship r.key = false) :
    merge d rs = ⟨d.withRelationships (firstBy identity (d.relationships.map identity) rs),
      (firstBy identity (d.relationships.map identity) rs).length, none⟩ := by
  rw [merge, mergeFrom_eq (fun r hr => ?_) h.keys hnew, Nat.zero_add]
  obtain ⟨a, ha, b, hb, hsource, htarget⟩ := h.ends r hr
  rw [hsource, htarget]
  exact ⟨hreach.tracked.holds ha, hreach.tracked.holds hb⟩

end Merging

end Inference

/-! ## Whole analyses -/

namespace Store

/-- A diagram that comes back from a store as it is. -/
structure Keepable (t : Diagram) : Prop where
  reachable : ∃ w, Reachable w t
  identified : Identified t
  numeric : Numeric t
  first : ClassifiersFirst t.elements
  background : t.backgroundColor ≠ ""

end Store

namespace Analysis

open Assembly (entered diagramOf numbering spent withClassifiers)
open Document (map_eq_of_forall₂ exists_of_forall₂)
open Grid (HeldBox Moved)
open Store (Keepable)

section Kept

variable {d : Diagram} {cs cs' : List Classifier} {rs : List Relationship} {name : String}
  {records : List Java.TypeRecord} {s start : Supply}

/-- Whatever is known of items is known by their keys, if these differ. -/
theorem exists_by_key {α β : Type} [Inhabited β] {key : α → Nat} {xs : List α} (f : α → β)
    (h : (xs.map key).Nodup) : ∃ g : Nat → β, ∀ x ∈ xs, f x = g (key x) := by
  induction xs with
  | nil => exact ⟨default, List.forall_mem_nil _⟩
  | cons x xs ih =>
    obtain ⟨hx, h⟩ := List.nodup_cons.mp h
    obtain ⟨g, hg⟩ := ih h
    refine ⟨Function.update g (key x) (f x), List.forall_mem_cons.mpr ⟨?_, fun y hy => ?_⟩⟩
    · rw [Function.update_self]
    · rw [Function.update_of_ne, hg y hy]
      exact fun heq => hx (List.mem_map.mpr ⟨y, hy, heq⟩)

theorem toEndpoint_moved {c c' : Classifier} (h : Moved c c') : c'.toEndpoint = c.toEndpoint := by
  rw [h]
  rfl

/-- The diagram of records with edges between its classifiers can be reached wherever these are. -/
theorem exists_reachable (hmoved : List.Forall₂ Moved (entered start records) cs')
    (h : Joining (entered start records) rs) : ∃ w, Reachable w
      ((withClassifiers (DiagramOf.empty name "" none none none s).1 cs').withRelationships rs) := by
  obtain ⟨source, hsource⟩ := exists_by_key (fun r : Relationship => r.source.key) h.keys
  obtain ⟨target, htarget⟩ := exists_by_key (fun r : Relationship => r.target.key) h.keys
  let w := numbering start source target
  let t := withClassifiers (DiagramOf.empty name "" none none none s).1 cs'
  have hclassifiers : t.classifiers = cs' := Assembly.classifiers_withClassifiers rfl
  have hsame : cs'.map (·.id) = (entered start records).map (·.id) :=
    map_eq_of_forall₂ hmoved fun c c' hc => by rw [hc]
  have hreach : Reachable w t := by
    refine Assembly.reachable_withClassifiers (.new ..) (fun c' hc' => ?_) (fun _ _ => rfl)
      (hsame ▸ Assembly.nodup_ids_entered)
    obtain ⟨c, hc, hmove⟩ := exists_of_forall₂ hmoved hc'
    rw [hmove]
    exact Assembly.id_of_entered Assembly.numbers_numbering c hc
  have hthere : ∀ c ∈ entered start records, ∃ c' ∈ t.classifiers, c.toEndpoint = c'.toEndpoint := by
    intro c hc
    obtain ⟨c', hc', hmove⟩ := exists_of_forall₂ hmoved.flip hc
    exact ⟨c', hclassifiers.symm ▸ hc', (toEndpoint_moved hmove).symm⟩
  refine ⟨w, hreach.withRelationships (fun r hr => ?_) (fun r hr => ⟨hsource r hr, htarget r hr⟩)
    (fun r hr => ?_) h.keys fun r _ => ?_⟩
  · obtain ⟨a, ha, b, hb, hends, hends'⟩ := h.ends r hr
    obtain ⟨a', ha', heq⟩ := hthere a ha
    obtain ⟨b', hb', heq'⟩ := hthere b hb
    exact ⟨a', ha', b', hb', hends.trans heq, hends'.trans heq'⟩
  · simpa using h.names r hr
  · exact DiagramOf.holdsRelationship_of_nil (Assembly.relationships_withClassifiers rfl) r.key

/-- Giving places moves the classifiers of records, and changes nothing else. -/
theorem exists_arranged : ∃ cs', List.Forall₂ Moved (entered { s with drawn := s.drawn + 1 } records) cs' ∧
    (∀ c ∈ cs', HeldBox c.box) ∧
    ((diagramOf name records s).withRelationships rs).arrange .standard =
      (withClassifiers (DiagramOf.empty name "" none none none s).1 cs').withRelationships rs := by
  let cs := entered { s with drawn := s.drawn + 1 } records
  obtain ⟨cs', hmoved, hboxes, harranged⟩ := Grid.arrange_standard
    (show ((diagramOf name records s).withRelationships rs).elements =
      cs.map .classifier ++ rs.map .relationship from rfl) Assembly.box_of_entered
  have hindex : cs'.map (fun c => (c.id, c.key)) = cs.map fun c => (c.id, c.key) :=
    map_eq_of_forall₂ hmoved fun c c' hc => by rw [hc]
  refine ⟨cs', hmoved, hboxes, ?_⟩
  rw [harranged, withClassifiers, hindex]
  rfl

/-- Once its classifiers have their places, a store keeps the diagram of records with edges between
its classifiers. -/
theorem keepable_arranged (h : Joining (entered { s with drawn := s.drawn + 1 } records) rs) :
    Keepable (((diagramOf name records s).withRelationships rs).arrange .standard) := by
  obtain ⟨cs', hmoved, hboxes, hplaced⟩ := @exists_arranged rs name records s
  have helements : ((withClassifiers (DiagramOf.empty name "" none none none s).1
      cs').withRelationships rs).elements = cs'.map .classifier ++ rs.map .relationship := rfl
  rw [hplaced]
  refine ⟨exists_reachable hmoved h, ?_, ⟨?_, fun c hc => ?_⟩, ?_, ?_⟩
  · intro e he
    rw [helements, List.mem_append] at he
    rcases he with he | he
    · obtain ⟨c', hc', rfl⟩ := List.mem_map.mp he
      obtain ⟨c, hc, hmove⟩ := exists_of_forall₂ hmoved hc'
      rw [hmove]
      exact Assembly.id_ne_of_entered c hc
    · obtain ⟨r, hr, rfl⟩ := List.mem_map.mp he
      exact h.ids r hr
  · show Store.Held 20.0
    unfold Store.Held
    decide
  · rw [DiagramOf.mem_classifiers, helements] at hc
    have hc : c ∈ cs' := by simpa using hc
    exact ⟨(hboxes c hc).x, (hboxes c hc).y, (hboxes c hc).width, (hboxes c hc).height⟩
  · rw [helements]
    exact Store.classifiersFirst_append
  · show "#FFFFFF" ≠ ""
    decide

end Kept

section Whole

variable {settings : Settings} {name : String} {s : Supply}

/-- Analyzing records succeeds: it gives their classifiers, with edges between them, in their places. -/
theorem ofRecords_eq (records : List Java.TypeRecord) : ∃ taken report s',
    Joining (entered { s with drawn := s.drawn + 1 } records) taken ∧
      ofRecords settings name records s = .ok ({
        diagram := ((diagramOf name records s).withRelationships taken).arrange settings.layout
        report }, s') := by
  let d := diagramOf name records s
  let analysis := Inference.analyze d settings.inference.searchOrder
    settings.inference.synthesizeSupertypes (spent { s with drawn := s.drawn + 1 } records.length)
  have hreach : Reachable (numbering { s with drawn := s.drawn + 1 } id id) d :=
    Assembly.reachable_diagramOf Assembly.numbers_numbering
  have hjoining : Joining d.classifiers analysis.1.relationships := Inference.joining_analyze hreach ..
  have hmerge := Inference.merge_joining hreach hjoining fun r _ =>
    DiagramOf.holdsRelationship_of_nil Assembly.relationships_diagramOf r.key
  let taken := Inference.firstBy Inference.identity (d.relationships.map Inference.identity)
    analysis.1.relationships
  refine ⟨taken, analysis.1, analysis.2, ?_, ?_⟩
  · rw [← Assembly.classifiers_diagramOf]
    exact hjoining.sublist Inference.firstBy_sublist
  · have hmerged : Assembly.mergedOrRefused (Inference.merge d analysis.1.relationships) =
        .ok (d.withRelationships taken) := by
      rw [hmerge]
      rfl
    rw [ofRecords, Assembly.ofRecords_eq]
    show (do
      let d ← Assembly.mergedOrRefused (Inference.merge d analysis.1.relationships)
      return (({ diagram := d.arrange settings.layout, report := analysis.1 } : Analysis), analysis.2)) = _
    rw [hmerged]
    rfl

/-- Analyzing sources succeeds, and the diagram has the uuid that comes next. A store keeps it as it is
if places are given as usual. -/
theorem exists_ofSources (settings : Settings) (name : String) (sources : List (Option String × String))
    (s : Supply) : ∃ a s', ofSources settings name sources s = .ok (a, s') ∧
      a.diagram.uuid = s.diagramId.1 ∧ (settings.layout = .standard → Keepable a.diagram) := by
  obtain ⟨taken, report, s', hjoining, hrecords⟩ := ofRecords_eq (recordsOf sources)
  let t := ((diagramOf name (recordsOf sources) s).withRelationships taken).arrange settings.layout
  refine ⟨{ diagram := t, report, filesScanned := sources.length }, s', ?_, rfl, fun hlayout => ?_⟩
  · rw [ofSources, hrecords]
    rfl
  · show Keepable (DiagramOf.arrange _ settings.layout)
    rw [hlayout]
    exact keepable_arranged hjoining

end Whole

end Analysis

end ClassAtlas
