import ClassAtlas.Proofs.Bookkeeping

/-! # Reachable diagrams

A diagram is reached from a new one by events. Beyond what bookkeeping needs, objects are taken as they
are at the time: a relationship knows of its ends what the classifiers there say, and has the name that
it was given when it was made. Then every end of a relationship in the diagram is a classifier of the
diagram, as it now is. -/

namespace ClassAtlas

variable {τ : Type}

/-- Whether an end is known as the classifiers of the diagram now are. -/
def DiagramOf.Shows (d : DiagramOf τ) (e : EndpointOf τ) : Prop :=
  ∀ c, .classifier c ∈ d.elements → c.key = e.key → c.toEndpoint = e

/-- An object beside a diagram, as it is at the time. -/
def DiagramOf.Current [Label τ] (d : DiagramOf τ) : ElementOf τ → Prop
  | .classifier _ => True
  | .relationship r => Label.isVoid r.name = false ∧ d.Shows r.source ∧ d.Shows r.target

/-- The diagrams that come about: a new one, one after an event, one with other settings. A diagram
always has a uuid. -/
inductive Reachable [Label τ] (w : Identity τ) : DiagramOf τ → Prop where
  | new (name description : τ) (author version uuid : Option τ) (s : Supply) :
      Reachable w (DiagramOf.empty name description author version uuid s).1
  | event {d : DiagramOf τ} (event : Event τ) : Reachable w d → w.Admits event.element →
      d.Current event.element → Reachable w (d.after event)
  | settings {d : DiagramOf τ} (new : DiagramOf τ) : Reachable w d → Label.isVoid new.uuid = false →
      Reachable w { new with elements := d.elements, index := d.index }

namespace DiagramOf

variable {w : Identity τ} {d d' : DiagramOf τ}

theorem Shows.mono {e : EndpointOf τ} (h : d.Shows e)
    (hsub : ∀ c, .classifier c ∈ d'.elements → .classifier c ∈ d.elements) : d'.Shows e :=
  fun c hc => h c (hsub c hc)

variable [Label τ]

theorem Current.mono {e : ElementOf τ} (h : d.Current e)
    (hsub : ∀ c, .classifier c ∈ d'.elements → .classifier c ∈ d.elements) : d'.Current e := by
  cases e with
  | classifier c => trivial
  | relationship r => exact ⟨h.1, h.2.1.mono hsub, h.2.2.mono hsub⟩

theorem empty_uuid {name description : τ} {author version uuid : Option τ} {s : Supply}
    (hdrawn : Label.isVoid (Label.ofText s.diagramId.1 : τ) = false) :
    Label.isVoid (empty name description author version uuid s).1.uuid = false := by
  unfold empty
  cases hgiven : uuid.filter fun u => !Label.isVoid u with
  | some u =>
    obtain ⟨-, hu⟩ := Option.filter_eq_some_iff.mp hgiven
    simpa using hu
  | none => exact hdrawn

/-- The ends of a relationship are there. -/
theorem Tracked.ends_mem (h : d.Tracked w) {r : RelationshipOf τ}
    (hr : .relationship r ∈ d.elements) :
    r.source.key ∈ classifierKeys d.elements ∧ r.target.key ∈ classifierKeys d.elements := by
  obtain ⟨before, after, he⟩ := List.append_of_mem hr
  have hg := h.grounded
  rw [he] at hg
  obtain ⟨hs, ht⟩ := hg.ends_before
  rw [List.append_nil] at hs ht
  rw [he, classifierKeys_append]
  exact ⟨List.mem_append_left _ hs, List.mem_append_left _ ht⟩

/-- A classifier of the diagram is known as it is. -/
theorem Tracked.shows [ReflBEq τ] (h : d.Tracked w) {c : ClassifierOf τ} (hc : c ∈ d.classifiers) :
    d.Shows c.toEndpoint := by
  intro a ha hk
  rw [h.eq_of_key (mem_classifiers.mpr ha) hc hk]

/-- A classifier of the diagram is the one entered under its id. -/
theorem Tracked.holds [EquivBEq τ] (h : d.Tracked w) {c : ClassifierOf τ} (hc : c ∈ d.classifiers) :
    d.holdsClassifier c.id c.key = true := by
  rw [h.id_eq hc]
  exact (h.holdsClassifier c.key).mpr (List.mem_map_of_mem hc)

omit [Label τ] in
/-- No end speaks of a classifier that comes: its key is new. -/
theorem Shows.addClassifier {e : EndpointOf τ} {c : ClassifierOf τ} {index : List (τ × Nat)}
    (h : d.Shows e) (he : e.key ∈ classifierKeys d.elements) (hc : c.key ∉ classifierKeys d.elements) :
    DiagramOf.Shows { d with elements := d.elements ++ [.classifier c], index } e := by
  intro a ha hak
  rcases List.mem_append.mp ha with ha | ha
  · exact h a ha hak
  · cases List.mem_singleton.mp ha
    rw [← hak] at he
    exact absurd he hc

theorem call_current [EquivBEq τ] (h : d.Tracked w) (hd : ∀ e ∈ d.elements, d.Current e)
    {call : Call τ} (hw : w.Admits call.element) (hc : d.Current call.element) :
    ∀ e ∈ (d.call call).2.elements, (d.call call).2.Current e := by
  have heffect := h.call hw
  generalize d.call call = result at heffect
  cases heffect with
  | refused refusal forbidden => exact hd
  | done index allowed tracked =>
    cases call with
    | addClassifier c =>
      have hnew : c.key ∉ classifierKeys d.elements := by
        have hn := tracked.nodup
        rw [Call.outcome, classifierKeys_append] at hn
        exact (List.nodup_append_comm.mp hn).notMem
      intro e he
      rcases List.mem_append.mp he with he | he
      · cases e with
        | classifier a => trivial
        | relationship r =>
          obtain ⟨hname, hs, ht⟩ := hd _ he
          obtain ⟨ks, kt⟩ := h.ends_mem he
          exact ⟨hname, hs.addClassifier ks hnew, ht.addClassifier kt hnew⟩
      · rw [List.mem_singleton.mp he]
        trivial
    | removeClassifier c =>
      exact fun e he => (hd e (List.mem_of_mem_filter he)).mono fun _ ha => List.mem_of_mem_filter ha
    | removeRelationship r =>
      exact fun e he => (hd e (List.mem_of_mem_filter he)).mono fun _ ha => List.mem_of_mem_filter ha
    | addRelationship r =>
      have hsub : ∀ a, .classifier a ∈ d.elements ++ [.relationship r] →
          .classifier a ∈ d.elements := fun a ha => by simpa using ha
      intro e he
      rcases List.mem_append.mp he with he | he
      · exact (hd e he).mono hsub
      · rw [List.mem_singleton.mp he]
        exact hc.mono hsub

omit [Label τ] in
theorem mem_mapElements_relationship {r : RelationshipOf τ} {a : ClassifierOf τ}
    (ha : .classifier a ∈ (d.mapElements (ElementOf.relationship r).update).elements) :
    .classifier a ∈ d.elements := by
  obtain ⟨b, hb, hba⟩ := List.mem_map.mp ha
  cases b with
  | classifier b => exact hba ▸ hb
  | relationship b => cases hba

omit [Label τ] in
theorem mem_mapElements_classifier {c a : ClassifierOf τ}
    (ha : .classifier a ∈ (d.mapElements (ElementOf.classifier c).update).elements) :
    ∃ b, .classifier b ∈ d.elements ∧ (if b.key == c.key then c else b) = a := by
  obtain ⟨b, hb, hba⟩ := List.mem_map.mp ha
  cases b with
  | classifier b => exact ⟨b, hb, ElementOf.classifier.inj hba⟩
  | relationship b => cases hba

omit [Label τ] in
/-- What an end knows of a classifier changes with the classifier. -/
theorem Shows.changeClassifier {e : EndpointOf τ} (h : d.Shows e) (c : ClassifierOf τ) :
    (d.mapElements (ElementOf.classifier c).update).Shows
      (if e.key == c.key then c.toEndpoint else e) := by
  intro a ha hak
  obtain ⟨b, hb, hba⟩ := mem_mapElements_classifier ha
  by_cases hec : e.key = c.key
  · simp only [hec, beq_self_eq_true, if_true] at hak ⊢
    by_cases hbc : b.key = c.key
    · simp only [hbc, beq_self_eq_true, if_true] at hba
      rw [hba]
    · simp only [beq_eq_false_iff_ne.mpr hbc, Bool.false_eq_true, if_false] at hba
      exact absurd (hba ▸ hak) hbc
  · simp only [beq_eq_false_iff_ne.mpr hec, Bool.false_eq_true, if_false] at hak ⊢
    by_cases hbc : b.key = c.key
    · simp only [hbc, beq_self_eq_true, if_true] at hba
      exact absurd (hba ▸ hak).symm hec
    · simp only [beq_eq_false_iff_ne.mpr hbc, Bool.false_eq_true, if_false] at hba
      exact h a (hba ▸ hb) hak

theorem change_current (hd : ∀ e ∈ d.elements, d.Current e) {e : ElementOf τ} (he : d.Current e) :
    ∀ e' ∈ (d.mapElements e.update).elements, (d.mapElements e.update).Current e' := by
  intro e' he'
  obtain ⟨old, ho, rfl⟩ := List.mem_map.mp he'
  cases old with
  | classifier a => cases e <;> trivial
  | relationship r =>
    cases e with
    | classifier c =>
      obtain ⟨hname, hs, ht⟩ := hd _ ho
      exact ⟨hname, hs.changeClassifier c, ht.changeClassifier c⟩
    | relationship new =>
      have hsub := fun a => mem_mapElements_relationship (d := d) (r := new) (a := a)
      show DiagramOf.Current _ (.relationship (if r.key == new.key then new else r))
      split
      · exact he.mono hsub
      · exact (hd _ ho).mono hsub

end DiagramOf

namespace Reachable

variable [Label τ] [EquivBEq τ] {w : Identity τ} {d : DiagramOf τ}

theorem invariant (h : Reachable w d) : d.Tracked w ∧ ∀ e ∈ d.elements, d.Current e := by
  induction h with
  | new name description author version uuid s =>
    exact ⟨DiagramOf.tracked_empty .., fun _ he => (List.not_mem_nil he).elim⟩
  | @event d event _ hw hc ih =>
    obtain ⟨htracked, hd⟩ := ih
    refine ⟨htracked.after hw, ?_⟩
    cases event with
    | call call => exact DiagramOf.call_current htracked hd hw hc
    | change e => exact DiagramOf.change_current hd hc
  | settings new _ _ ih =>
    obtain ⟨htracked, hd⟩ := ih
    exact ⟨⟨htracked.admitted, htracked.indexed, htracked.apart, htracked.once, htracked.grounded⟩,
      fun e he => (hd e he).mono fun _ hc => hc⟩

theorem tracked (h : Reachable w d) : d.Tracked w := h.invariant.1

/-- A relationship starts at a classifier of the diagram, as it now is. -/
theorem source_mem (h : Reachable w d) {r : RelationshipOf τ} (hr : r ∈ d.relationships) :
    ∃ c ∈ d.classifiers, c.toEndpoint = r.source := by
  have hr := DiagramOf.mem_relationships.mp hr
  obtain ⟨c, hc, hk⟩ := mem_classifierKeys.mp (h.tracked.ends_mem hr).1
  exact ⟨c, DiagramOf.mem_classifiers.mpr hc, (h.invariant.2 _ hr).2.1 c hc hk⟩

/-- A relationship leads to a classifier of the diagram, as it now is. -/
theorem target_mem (h : Reachable w d) {r : RelationshipOf τ} (hr : r ∈ d.relationships) :
    ∃ c ∈ d.classifiers, c.toEndpoint = r.target := by
  have hr := DiagramOf.mem_relationships.mp hr
  obtain ⟨c, hc, hk⟩ := mem_classifierKeys.mp (h.tracked.ends_mem hr).2
  exact ⟨c, DiagramOf.mem_classifiers.mpr hc, (h.invariant.2 _ hr).2.2 c hc hk⟩

theorem named (h : Reachable w d) {r : RelationshipOf τ} (hr : r ∈ d.relationships) :
    Label.isVoid r.name = false := (h.invariant.2 _ (DiagramOf.mem_relationships.mp hr)).1

/-- A diagram has a uuid if uuids that are drawn are not void. -/
theorem uuid (h : Reachable w d)
    (hdrawn : ∀ s : Supply, Label.isVoid (Label.ofText s.diagramId.1 : τ) = false) :
    Label.isVoid d.uuid = false := by
  induction h with
  | new name description author version uuid s => exact DiagramOf.empty_uuid (hdrawn s)
  | settings new _ huuid _ => exact huuid
  | @event d event hreach hw _ ih =>
    cases event with
    | change e => exact ih
    | call call =>
      have heffect := hreach.tracked.call hw
      rw [DiagramOf.after]
      generalize d.call call = result at heffect
      cases heffect with
      | done index allowed tracked => exact ih
      | refused refusal forbidden => exact ih

omit [EquivBEq τ] in
/-- A classifier under a free id can be added. -/
theorem withClassifier (h : Reachable w d) {c : ClassifierOf τ} (hw : c.id = w.id c.key)
    (hfree : d.keyOf? c.id = none) :
    Reachable w { d with
      elements := d.elements ++ [.classifier c], index := d.index ++ [(c.id, c.key)] } := by
  have hadd := h.event (.call (.addClassifier c)) hw trivial
  rw [DiagramOf.after, DiagramOf.call_eq, DiagramOf.respond, DiagramOf.addClassifier,
    DiagramOf.holdsClassifier, hfree] at hadd
  exact hadd

/-- A relationship with a name can be added between two classifiers of the diagram. -/
theorem withRelationship (h : Reachable w d) {r : RelationshipOf τ} {a b : ClassifierOf τ}
    (ha : a ∈ d.classifiers) (hb : b ∈ d.classifiers) (hs : r.source = a.toEndpoint)
    (ht : r.target = b.toEndpoint) (hw : a.key = w.source r.key ∧ b.key = w.target r.key)
    (hname : Label.isVoid r.name = false) (hnew : d.holdsRelationship r.key = false) :
    Reachable w { d with elements := d.elements ++ [.relationship r] } := by
  have hadmits : w.Admits (.relationship r) := by
    rw [Identity.Admits, hs, ht]
    exact ⟨hw.1, hw.2, h.tracked.id_eq ha, h.tracked.id_eq hb⟩
  have hcurrent : d.Current (.relationship r) := by
    rw [DiagramOf.Current, hs, ht]
    exact ⟨hname, h.tracked.shows ha, h.tracked.shows hb⟩
  have hsource : d.holdsClassifier r.source.id r.source.key = true := by
    rw [hs]
    exact h.tracked.holds ha
  have htarget : d.holdsClassifier r.target.id r.target.key = true := by
    rw [ht]
    exact h.tracked.holds hb
  have hadd := h.event (.call (.addRelationship r)) hadmits hcurrent
  rw [DiagramOf.after, DiagramOf.call_eq, DiagramOf.respond, DiagramOf.addRelationship, hsource,
    htarget, hnew] at hadd
  exact hadd

end Reachable

end ClassAtlas
