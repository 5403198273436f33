import ClassAtlas.Proofs.AnalyzedDiagrams
import ClassAtlas.Proofs.Requests
import ClassAtlas.Proofs.SurvivingResults
import Mathlib.Logic.Relation

/-! # Served diagrams

A diagram that was built from sources and saved is served from then on as it was built: its document,
its defects and its picture. Whatever else is asked, of the service or of its store, and even if the
service starts anew, only saving or deleting under the uuid of the diagram can change that. -/

namespace ClassAtlas

open Document (Makes makes_bind makes_pure run_bind_eq SameResults)

/-! ## Keeping and loading -/

namespace Store

open Document (ofOption_map_str writeField_map writeOperation_map)

section Texts

variable {uuid : String} {updated position : Nat}

theorem optionalColumn_map (text? : Option String) :
    optionalColumn (text?.map Value.str) = optionalColumn text? := by
  rw [optionalColumn, ofOption_map_str, optionalColumn]

theorem ofDiagram_map (t : Diagram) :
    DiagramRow.ofDiagram uuid updated (t.map Value.str) = DiagramRow.ofDiagram uuid updated t := by
  simp only [DiagramRow.ofDiagram, DiagramOf.map, optionalColumn_map]
  rfl

theorem ofClassifier_map (c : Classifier) :
    ClassifierRow.ofClassifier uuid position (c.map Value.str) =
      ClassifierRow.ofClassifier uuid position c := by
  simp only [ClassifierRow.ofClassifier, ClassifierOf.map, optionalColumn_map, List.map_map,
    Function.comp_def, writeField_map, writeOperation_map]
  rfl

theorem ofRelationship_map (r : Relationship) :
    RelationshipRow.ofRelationship uuid position (r.map Value.str) =
      RelationshipRow.ofRelationship uuid position r := by
  simp only [RelationshipRow.ofRelationship, RelationshipOf.map, EndpointOf.map, optionalColumn_map]
  rfl

theorem stamp_map (db : Database) (t : Diagram) :
    db.stamp uuid (t.map Value.str) = db.stamp uuid t := by
  have hagrees : ∀ row : DiagramRow, row.agrees (t.map Value.str) = row.agrees t := fun row => by
    simp only [DiagramRow.agrees, DiagramOf.map, ofOption_map_str]
    rfl
  simp only [Database.stamp, hagrees]

/-- Saving texts is saving values that are texts. -/
theorem saving_map (t : Diagram) : saving (t.map Value.str) = saving t := by
  have helements : (t.map Value.str).elements = t.elements.map (·.map Value.str) := rfl
  simp only [saving, helements, placedClassifiers_map, placedRelationships_map, List.forM_eq_forM,
    List.forM_map, stamp_map, ofDiagram_map, insertClassifier, insertRelationship, ofClassifier_map,
    ofRelationship_map]
  rfl

end Texts

section Kept

variable {db db' : Database} {t : Diagram}

theorem makes_of_save (h : db.save t = .ok db') : Makes (saving t) db t.uuid db' := by
  obtain ⟨uuid, hmakes⟩ := save_eq_ok.mp h
  obtain rfl : t.uuid = uuid := Option.some.inj (Except.ok.inj (makes_saving.mp hmakes).1)
  exact hmakes

/-- A diagram that a store keeps can be saved where nothing is. -/
theorem Keepable.exists_saved (h : Keepable t)
    (hfresh : Holds db t.uuid (none : Option (DiagramOf Value))) :
    ∃ db', db.save t = .ok db' ∧ Holds db' t.uuid (some (t.map Value.str)) := by
  obtain ⟨db', hmakes⟩ := exists_makes_saving db h.numeric
  have hholds := hfresh.saved hmakes
  rw [saving_map] at hmakes
  exact ⟨db', save_eq_ok.mpr ⟨_, hmakes⟩, hholds⟩

/-- Loading it gives its document and all that is found out about it. -/
theorem Keepable.exists_loaded (h : Keepable t) (hholds : Holds db t.uuid (some (t.map Value.str)))
    (s : Supply) : ∃ d s', Makes (db.load t.uuid) s (some d) s' ∧
      Document.write d = Document.write t ∧ SameResults t d := by
  obtain ⟨w, hreach⟩ := h.reachable
  obtain ⟨d, s', hread, -, hrestores⟩ := restored_identified hreach h.identified s
  have hdocument : Document.write d = Document.write (Document.parted (withBackground t)) := by
    rw [hrestores.write_eq, Document.parted_map, Document.write_map]
  refine ⟨d, s', ?_, hdocument.trans (write_parted_eq_iff.mpr ⟨h.first, h.background⟩),
    Document.sameResults_of_restores hreach hread hrestores⟩
  rw [load_of_document? (hholds.document?_eq h.numeric)]
  exact makes_map hread

end Kept

end Store

namespace Http

open Store (Keepable Holds SameRows makes_of_save sameRows_saving sameRows_delete sameRows_after)

/-! ## Answers -/

section Answers

variable {s s' : Server} {db : Store.Database} {r : Request} {route : Route} {response : Response}
  {uuid : String}

/-- A request is answered with what the work on its route makes. -/
theorem handle_eq (hasks : r.Asks route) (h : Makes (answer r route) s response s') :
    handle r s = (.ok response, s') := by
  have hrun : (answer r route).run s = (.ok response, s') := h
  rw [handle, hasks]
  simp only [hrun]

theorem makes_requireDatabase (h : s.database? = some db) : Makes requireDatabase s db s := by
  refine makes_bind.mpr ⟨s, s, rfl, ?_⟩
  rw [h]
  rfl

theorem makes_loadStored {supply : Supply} {d : DiagramOf Value}
    (h : Makes (db.load uuid) s.supply (some d) supply) :
    Makes (loadStored db uuid) s d { s with supply } := by
  refine makes_bind.mpr ⟨.ok (some d), { s with supply }, ?_, rfl⟩
  have hrun : (db.load uuid).run s.supply = (.ok (some d), supply) := h
  show (Except.ok ((db.load uuid).run s.supply).1,
    { s with supply := ((db.load uuid).run s.supply).2 }) = _
  rw [hrun]

/-- What is answered about a stored diagram is answered about what is loaded. -/
theorem makes_stored {supply : Supply} {d : DiagramOf Value} {work : DiagramOf Value → Work Response}
    (hdb : s.database? = some db) (hload : Makes (db.load uuid) s.supply (some d) supply)
    (h : Makes (work d) { s with supply } response s') :
    Makes (do work (← loadStored (← requireDatabase) uuid)) s response s' :=
  makes_bind.mpr ⟨db, s, makes_requireDatabase hdb,
    makes_bind.mpr ⟨d, _, makes_loadStored hload, h⟩⟩

theorem makes_useTexts {α : Type} {result : Except Document.Misuse α} {a : α} (h : result = .ok a) :
    Makes (useTexts result) s a s := by
  rw [h]
  rfl

end Answers

/-! ## Serving -/

/-- A server serves a diagram: the routes to its uuid tell of this very diagram. -/
structure Serves (s : Server) (t : Diagram) : Prop where
  document : ∀ r : Request, r.method = "GET" → r.path = "/api/diagrams/" ++ t.uuid →
    (handle r s).1 = .ok (ok (Document.write t))
  validation : ∀ r : Request, r.method = "GET" →
    r.path = "/api/diagrams/" ++ t.uuid ++ "/validation" →
    (handle r s).1 = .ok (ok (validationBody t.validate))
  plantUml : ∀ r : Request, r.method = "GET" → r.path = "/api/diagrams/" ++ t.uuid ++ "/plantuml" →
    (handle r s).1 = .ok (ok (.str (PlantUml.render t)))

section Serving

variable {s : Server} {db : Store.Database} {t : Diagram}

/-- A server serves what its store holds. -/
theorem serves_of_holds (hkeep : Keepable t) (hid : t.uuid ≠ "") (hplain : '/' ∉ t.uuid.toList)
    (hdb : s.database? = some db) (hholds : Holds db t.uuid (some (t.map Value.str))) : Serves s t := by
  obtain ⟨d, supply, hload, hdocument, hresults⟩ := hkeep.exists_loaded hholds s.supply
  refine ⟨fun r hmethod hpath => ?_, fun r hmethod hpath => ?_, fun r hmethod hpath => ?_⟩
  · have hmakes : Makes (diagram t.uuid) s (ok (Document.write t)) { s with supply } :=
      makes_stored hdb hload (makes_pure.mpr ⟨by rw [hdocument], rfl⟩)
    rw [handle_eq (asks_diagram hid hplain hmethod hpath) hmakes]
  · have hmakes : Makes (validation t.uuid) s (ok (validationBody t.validate)) { s with supply } :=
      makes_stored hdb hload (makes_bind.mpr ⟨_, _, makes_useTexts hresults.validate, rfl⟩)
    rw [handle_eq (asks_validation hid hplain hmethod hpath) hmakes]
  · have hmakes : Makes (plantUml t.uuid) s (ok (.str (PlantUml.render t))) { s with supply } :=
      makes_stored hdb hload (makes_bind.mpr ⟨_, _, makes_useTexts hresults.render, rfl⟩)
    rw [handle_eq (asks_plantUml hid hplain hmethod hpath) hmakes]

/-- A drawn uuid is a segment of a path. -/
theorem plain_diagramId (supply : Supply) :
    supply.diagramId.1 ≠ "" ∧ '/' ∉ supply.diagramId.1.toList := by
  have hdigits : '/' ∉ Nat.toDigits 10 (supply.drawn + 1) := fun h =>
    absurd (Nat.isDigit_of_mem_toDigits (by omega) (by omega) h) (by decide)
  constructor
  · simp [Supply.diagramId]
  · simpa [Supply.diagramId, Nat.toString_eq_ofList_toDigits] using hdigits

end Serving

/-! ## What leaves a diagram alone -/

/-- Work that does not touch the store. -/
def Leaves {α : Type} (work : Work α) : Prop := ∀ s, (work.run.run s).2.database? = s.database?

namespace Leaves

variable {α β : Type} {work : Work α} {next : α → Work β}

theorem pure (a : α) : Leaves (pure a) := fun _ => rfl

theorem throw (e : Ending) : Leaves (throw e : Work α) := fun _ => rfl

theorem get : Leaves (get : Work Server) := fun _ => rfl

theorem bind (h : Leaves work) (hnext : ∀ a, Leaves (next a)) : Leaves (work >>= next) := by
  intro s
  have hs := h s
  rw [run_bind_eq]
  generalize work.run.run s = outcome at hs ⊢
  obtain ⟨e | a, t⟩ := outcome
  · exact hs
  · exact (hnext a t).trans hs

theorem accept (form : Form α) : Leaves (accept form) := by
  cases form with
  | ok a => exact pure a
  | error complaints => exact throw _

theorem useTexts (result : Except Document.Misuse α) : Leaves (useTexts result) := by
  cases result with
  | ok a => exact pure a
  | error m => exact throw _

theorem drawing (work : Making Document.Fault α) : Leaves (drawing work) := fun _ => rfl

theorem requireDatabase : Leaves requireDatabase := by
  refine get.bind fun s => ?_
  split
  · exact pure _
  · exact throw _

theorem readDocument (document : Value) : Leaves (readDocument document) := by
  refine (drawing _).bind fun result => ?_
  split
  · exact pure _
  · exact throw _
  · split <;> exact throw _

theorem loadStored (db : Store.Database) (uuid : String) : Leaves (loadStored db uuid) := by
  refine (drawing _).bind fun result => ?_
  split
  · exact pure _
  · exact throw _
  · exact throw _

/-- Only two routes lead to work that touches the store. -/
theorem answer {route : Route} (r : Request) (hdelete : ∀ uuid, route ≠ .delete uuid)
    (hsource : route ≠ .fromSource) : Leaves (answer r route) := by
  cases route with
  | delete uuid => exact absurd rfl (hdelete uuid)
  | fromSource => exact absurd rfl hsource
  | health => exact get.bind fun s => pure _
  | extract => exact (accept _).bind fun form => pure _
  | validate =>
    exact (accept _).bind fun document => (readDocument document).bind fun d =>
      (useTexts _).bind fun _ => pure _
  | generate =>
    exact (accept _).bind fun document => (readDocument document).bind fun d => get.bind fun s =>
      (useTexts _).bind fun _ => pure _
  | list =>
    refine requireDatabase.bind fun db => (accept _).bind fun limit => ?_
    split
    · exact (throw _).bind fun _ => pure _
    · exact pure _
  | diagram uuid => exact requireDatabase.bind fun db => (loadStored db uuid).bind fun d => pure _
  | validation uuid =>
    exact requireDatabase.bind fun db => (loadStored db uuid).bind fun d =>
      (useTexts _).bind fun _ => pure _
  | plantUml uuid =>
    exact requireDatabase.bind fun db => (loadStored db uuid).bind fun d =>
      (useTexts _).bind fun _ => pure _

end Leaves

/-- Both servers have a store, and under a uuid the stores have the same rows. -/
def Alike (uuid : String) (s s' : Server) : Prop :=
  ∀ db, s.database? = some db → ∃ db', s'.database? = some db' ∧ SameRows db db' uuid

/-- A request saves under a uuid. -/
def Request.Saves (r : Request) (s : Server) (uuid : String) : Prop :=
  r.Asks .fromSource ∧ (∃ form, SourceForm.read r.body = .ok form ∧ form.save = true) ∧
    s.supply.diagramId.1 = uuid

section Alike

variable {uuid other : String} {r : Request} {route : Route} {s s' s'' : Server}

theorem alike_of_eq (h : s'.database? = s.database?) : Alike uuid s s' :=
  fun db hdb => ⟨db, h.trans hdb, ⟨rfl, rfl, rfl⟩⟩

theorem Alike.trans (h : Alike uuid s s') (h' : Alike uuid s' s'') : Alike uuid s s'' := by
  intro db hdb
  obtain ⟨db', hdb', hrow, hclassifiers, hrelationships⟩ := h db hdb
  obtain ⟨db'', hdb'', hrow', hclassifiers', hrelationships'⟩ := h' db' hdb'
  exact ⟨db'', hdb'', hrow'.trans hrow, hclassifiers'.trans hclassifiers,
    hrelationships'.trans hrelationships⟩

/-- Deleting under another uuid. -/
theorem alike_delete (hne : other ≠ uuid) : Alike uuid s ((delete other).run.run s).2 := by
  intro db hdb
  have hrun : requireDatabase.run.run s = (.ok db, s) := makes_requireDatabase hdb
  rw [delete, run_bind_eq, hrun]
  dsimp only
  split
  · exact ⟨db, hdb, ⟨rfl, rfl, rfl⟩⟩
  · exact ⟨_, rfl, sameRows_delete hne.symm⟩

/-- Saving under another uuid. -/
theorem alike_save {d : Diagram} (hne : d.uuid ≠ uuid) : Alike uuid s ((save d).run.run s).2 := by
  intro db hdb
  have hrun : requireDatabase.run.run s = (.ok db, s) := makes_requireDatabase hdb
  rw [save, run_bind_eq, hrun]
  dsimp only
  split
  · rename_i db' hsaved
    exact ⟨db', rfl, sameRows_saving (makes_of_save hsaved) hne.symm⟩
  · exact ⟨db, hdb, ⟨rfl, rfl, rfl⟩⟩

/-- A form that serves is answered with the analysis of its sources, which is saved if that is asked. -/
theorem run_fromSource {form : SourceForm} {a : Analysis} {supply : Supply}
    (hform : SourceForm.read r.body = .ok form)
    (hanalysis : Analysis.ofSources s.settings form.name form.sources s.supply = .ok (a, supply)) :
    (fromSource r).run.run s = (do
      if form.save then save a.diagram
      return ok (analysisBody a form.save) : Work Response).run.run { s with supply } := by
  have haccept : (accept (.ok form)).run.run s = (.ok form, s) := rfl
  have hget : (get : Work Server).run.run s = (.ok s, s) := rfl
  rw [fromSource, hform, run_bind_eq, haccept]
  dsimp only
  rw [run_bind_eq, hget]
  dsimp only
  rw [hanalysis]
  rfl

theorem alike_fromSource (h : ∀ form, SourceForm.read r.body = .ok form → form.save = true →
    s.supply.diagramId.1 ≠ uuid) : Alike uuid s ((fromSource r).run.run s).2 := by
  cases hform : SourceForm.read r.body with
  | error complaints =>
    rw [fromSource, hform]
    exact alike_of_eq rfl
  | ok form =>
    -- the diagram has the uuid that comes next, whatever the sources are
    obtain ⟨a, supply, hanalysis, huuid, -⟩ :=
      Analysis.exists_ofSources s.settings form.name form.sources s.supply
    rw [run_fromSource hform hanalysis]
    cases hsave : form.save with
    | false => exact alike_of_eq rfl
    | true =>
      have hne : a.diagram.uuid ≠ uuid := huuid ▸ h form hform hsave
      have hsaved : Alike uuid { s with supply } ((save a.diagram).run.run { s with supply }).2 :=
        alike_save hne
      show Alike uuid s ((save a.diagram >>= fun _ => pure (ok (analysisBody a true))).run.run _).2
      rw [run_bind_eq]
      -- the answer that comes after saving changes nothing, and nothing comes after a failure
      generalize (save a.diagram).run.run { s with supply } = outcome at hsaved ⊢
      rcases outcome with ⟨e | u, t⟩ <;> exact hsaved

theorem state_handle (hroute : r.Asks route) : (handle r s).2 = ((answer r route).run.run s).2 := by
  have hrun : (answer r route).run s = (answer r route).run.run s := rfl
  rw [handle, hroute]
  simp only [hrun]
  rcases (answer r route).run.run s with ⟨(response | b) | response, t⟩ <;> rfl

/-- A request that neither deletes nor saves under a uuid. -/
theorem alike_handle (hdelete : ¬ r.Asks (.delete uuid)) (hsave : ¬ r.Saves s uuid) :
    Alike uuid s (handle r s).2 := by
  cases hroute : Match.ofRequest r.method r.path with
  | nothing =>
    rw [handle, hroute]
    exact alike_of_eq rfl
  | wrongMethod =>
    rw [handle, hroute]
    exact alike_of_eq rfl
  | found route =>
    rw [state_handle hroute]
    cases route with
    | delete other => exact alike_delete fun heq => hdelete (heq ▸ hroute)
    | fromSource =>
      exact alike_fromSource fun form hform hsaved huuid =>
        hsave ⟨hroute, ⟨form, hform, hsaved⟩, huuid⟩
    | _ => exact alike_of_eq (Leaves.answer r (by simp) (by simp) s)

end Alike

/-! ## What was saved is served -/

/-- What can happen to a server while nothing is saved or deleted under a uuid. -/
inductive Spares (uuid : String) : Server → Server → Prop where
  /-- It answers a request. -/
  | answered {r : Request} {s : Server} : ¬ r.Asks (.delete uuid) → ¬ r.Saves s uuid →
      Spares uuid s (handle r s).2
  /-- Its store is asked by someone else. -/
  | stored {request : Store.Request} {s : Server} {db : Store.Database} : s.database? = some db →
      request.uuid? ≠ some uuid → Spares uuid s { s with database? := some (db.after request) }
  /-- It starts anew with the same store. -/
  | restarted {s s' : Server} : s'.database? = s.database? → Spares uuid s s'

section Saved

variable {uuid : String} {r : Request} {s s' later : Server} {db : Store.Database} {form : SourceForm}

theorem Spares.alike (h : Spares uuid s s') : Alike uuid s s' := by
  cases h with
  | answered hdelete hsave => exact alike_handle hdelete hsave
  | restarted hsame => exact alike_of_eq hsame
  | stored hdb hne =>
    intro db hdb'
    obtain rfl := Option.some.inj (hdb.symm.trans hdb')
    exact ⟨_, rfl, sameRows_after hne⟩

theorem alike_of_spares (h : Relation.ReflTransGen (Spares uuid) s later) : Alike uuid s later := by
  induction h with
  | refl => exact alike_of_eq rfl
  | tail _ hstep ih => exact ih.trans hstep.alike

/-- A form that asks for saving is answered with the analysis of its sources, whose diagram is in the
store afterwards. -/
theorem handle_fromSource {a : Analysis} {supply : Supply} {db' : Store.Database}
    (hasks : r.Asks .fromSource) (hform : SourceForm.read r.body = .ok form) (hsave : form.save = true)
    (hanalysis : Analysis.ofSources s.settings form.name form.sources s.supply = .ok (a, supply))
    (hdb : s.database? = some db) (hsaved : db.save a.diagram = .ok db') :
    handle r s = (.ok (ok (analysisBody a true)), { s with supply, database? := some db' }) := by
  refine handle_eq hasks ?_
  have hmakes : Makes (save a.diagram) { s with supply } ⟨⟩
      { s with supply, database? := some db' } := by
    refine makes_bind.mpr ⟨db, _, makes_requireDatabase hdb, ?_⟩
    rw [hsaved]
    rfl
  show (fromSource r).run.run s = _
  rw [run_fromSource hform hanalysis, hsave]
  exact makes_bind.mpr ⟨⟨⟩, _, hmakes, makes_pure.mpr ⟨rfl, rfl⟩⟩

/-- Sources that are sent to be saved, under a name and with usual places, are answered with their
analysis. Whatever happens next, the server serves the diagram of this analysis, as long as nothing is
saved or deleted under its uuid. -/
theorem saved_is_served (hmethod : r.method = "POST") (hpath : r.path = "/api/diagrams/from-source")
    (hform : r.body.Carries form) (hname : form.name ≠ "") (hsources : form.sources ≠ [])
    (hsave : form.save = true) (hlayout : s.settings.layout = .standard) (hdb : s.database? = some db)
    (hfresh : Holds db s.supply.diagramId.1 (none : Option (DiagramOf Value))) :
    ∃ a supply s', Analysis.ofSources s.settings form.name form.sources s.supply = .ok (a, supply) ∧
      a.diagram.uuid = s.supply.diagramId.1 ∧ handle r s = (.ok (ok (analysisBody a true)), s') ∧
      ∀ later, Relation.ReflTransGen (Spares a.diagram.uuid) s' later → Serves later a.diagram := by
  obtain ⟨a, supply, hanalysis, huuid, hkeep⟩ :=
    Analysis.exists_ofSources s.settings form.name form.sources s.supply
  have hkeep := hkeep hlayout
  obtain ⟨hid, hplain⟩ := plain_diagramId s.supply
  rw [← huuid] at hid hplain hfresh
  obtain ⟨db', hsaved, hholds⟩ := hkeep.exists_saved hfresh
  have hread := read_of_carries hform hname hsources
  refine ⟨a, supply, _, hanalysis, huuid,
    handle_fromSource (asks_fromSource hmethod hpath) hread hsave hanalysis hdb hsaved, ?_⟩
  intro later hlater
  obtain ⟨db'', hdb'', hsame⟩ := alike_of_spares hlater db' rfl
  exact serves_of_holds hkeep hid hplain hdb'' (hholds.congr hsame)

/-- One class is sent to an empty store, and its diagram is there after the server starts anew. -/
theorem saved_is_served_circle :
    let form : SourceForm := ⟨"shapes", [(none, "class Circle \x7b \x7d")], true⟩
    let body : Value := .object [("name", .str "shapes"),
      ("sources", .list [.object [("text", .str "class Circle \x7b \x7d")]]), ("save", .bool true)]
    let r : Request := ⟨"POST", "/api/diagrams/from-source", .value body⟩
    let s : Server := { database? := some {} }
    r.path = "/api/diagrams/from-source" ∧ r.body.Carries form ∧ form.name ≠ "" ∧ form.sources ≠ [] ∧
      s.settings.layout = .standard ∧ Holds {} s.supply.diagramId.1 (none : Option (DiagramOf Value)) ∧
      ∃ a s', handle r s = (.ok (ok (analysisBody a true)), s') ∧
        ∀ get : Request, get.method = "GET" → get.path = "/api/diagrams/uuid-1" →
          (handle get { s' with supply := {} }).1 = .ok (ok (Document.write a.diagram)) := by
  intro form body r s
  have hpath : r.path = "/api/diagrams/from-source" := by decide +kernel
  have hform : r.body.Carries form := ⟨body, _, rfl, rfl, rfl, .cons ⟨rfl, rfl⟩ .nil, rfl⟩
  have hname : form.name ≠ "" := by simp [form]
  have hsources : form.sources ≠ [] := by simp [form]
  have hfresh : Holds {} s.supply.diagramId.1 (none : Option (DiagramOf Value)) := .nothing rfl rfl rfl
  obtain ⟨a, supply, s', -, huuid, hposted, hserves⟩ :=
    saved_is_served rfl hpath hform hname hsources rfl rfl rfl hfresh
  refine ⟨hpath, hform, hname, hsources, rfl, hfresh, a, s', hposted, fun get hmethod hget => ?_⟩
  have hserved := hserves { s' with supply := {} } (.single (.restarted rfl))
  refine hserved.document get hmethod ?_
  rw [hget, huuid]
  decide

end Saved

end Http

end ClassAtlas
