import ClassAtlas.Http.Service
import ClassAtlas.Proofs.PathNames
import ClassAtlas.Proofs.SuccessfulReading

/-! # What requests ask for

The segments of a path say where it leads, so the paths below a uuid lead to the diagram of that uuid as
long as no slash is in it. A body with a name and with sources, neither of them empty, is taken for a
form with these. -/

namespace ClassAtlas.Http

open Schema

/-! ## Segments of paths -/

section Segments

variable {segments : List String}

/-- Where segments lead somewhere, the path that they make leads there. -/
theorem routesOn_of_segments (hne : segments ≠ []) (h : ∀ s ∈ segments, '/' ∉ s.toList)
    (hroutes : routesAlong segments ≠ []) :
    routesOn ("/".intercalate segments) = routesAlong segments := by
  rw [routesOn, Path.splitOn_intercalate Path.separates_slash hne h]
  split
  · exact absurd ‹_› hroutes
  · rfl

end Segments

/-! ## Routes -/

/-- The route of a request is this one. -/
def Request.Asks (r : Request) (route : Route) : Prop := Match.ofRequest r.method r.path = .found route

section Routes

variable {r : Request} {segments : List String} {route : Route} {id : String}

theorem asks_of_segments (hpath : r.path = "/".intercalate segments) (hne : segments ≠ [])
    (h : ∀ s ∈ segments, '/' ∉ s.toList)
    (hroute : (routesAlong segments).lookup r.method = some route) : r.Asks route := by
  have hroutes : routesAlong segments ≠ [] := by
    intro hnil
    rw [hnil] at hroute
    cases hroute
  rw [Request.Asks, Match.ofRequest, hpath, routesOn_of_segments hne h hroutes]
  split
  · exact absurd ‹_› hroutes
  · rw [hroute]

/-- What is sent to a word below the diagrams goes the route of the word. -/
theorem asks_posted (word : String) (hmethod : r.method = "POST")
    (hpath : r.path = "/".intercalate ["", "api", "diagrams", word]) (hplain : '/' ∉ word.toList)
    (hroute : (routesAlong ["", "api", "diagrams", word]).lookup "POST" = some route) :
    r.Asks route := by
  refine asks_of_segments hpath (by simp) (by simpa using hplain) ?_
  rw [hmethod]
  exact hroute

theorem asks_fromSource (hmethod : r.method = "POST") (hpath : r.path = "/api/diagrams/from-source") :
    r.Asks .fromSource :=
  asks_posted "from-source" hmethod (hpath.trans (by decide)) (by decide) (by decide)

theorem asks_validate (hmethod : r.method = "POST") (hpath : r.path = "/api/diagrams/validate") :
    r.Asks .validate :=
  asks_posted "validate" hmethod (hpath.trans (by decide)) (by decide) (by decide)

theorem asks_generate (hmethod : r.method = "POST") (hpath : r.path = "/api/diagrams/generate") :
    r.Asks .generate :=
  asks_posted "generate" hmethod (hpath.trans (by decide)) (by decide) (by decide)

variable (hid : id ≠ "") (hplain : '/' ∉ id.toList) (hmethod : r.method = "GET")

include hid hplain hmethod

/-- Routes on the same path that take documents are not in the way of a stored diagram. -/
theorem asks_diagram (hpath : r.path = "/api/diagrams/" ++ id) : r.Asks (.diagram id) := by
  have hsegments : r.path = "/".intercalate ["", "api", "diagrams", id] := by
    simp [hpath, ← String.toList_inj]
  refine asks_of_segments hsegments (by simp) (by simpa using hplain) ?_
  simp only [hmethod, routesAlong, String.isEmpty_iff, if_neg hid]
  -- a uuid that is the word of another route has that route as well, but for another method
  split <;> rfl

theorem asks_validation (hpath : r.path = "/api/diagrams/" ++ id ++ "/validation") :
    r.Asks (.validation id) := by
  have hsegments : r.path = "/".intercalate ["", "api", "diagrams", id, "validation"] := by
    simp [hpath, ← String.toList_inj]
  refine asks_of_segments hsegments (by simp) (by simpa using hplain) ?_
  simp only [hmethod, routesAlong, String.isEmpty_iff, if_neg hid]
  rfl

theorem asks_plantUml (hpath : r.path = "/api/diagrams/" ++ id ++ "/plantuml") :
    r.Asks (.plantUml id) := by
  have hsegments : r.path = "/".intercalate ["", "api", "diagrams", id, "plantuml"] := by
    simp [hpath, ← String.toList_inj]
  refine asks_of_segments hsegments (by simp) (by simpa using hplain) ?_
  simp only [hmethod, routesAlong, String.isEmpty_iff, if_neg hid]
  rfl

end Routes

/-! ## Forms -/

/-- A value holds a source: its text and, if it has one, its path. -/
structure CarriesSource (v : Value) (source : Option String × String) : Prop where
  path : (v.get? "path").getD .null = Value.ofText? source.1
  text : v.get? "text" = some (.str source.2)

/-- A body holds the parts of a form. -/
def Body.Carries (body : Body) (form : SourceForm) : Prop :=
  ∃ v items, body.read = .ok v ∧ v.get? "name" = some (.str form.name) ∧
    v.get? "sources" = some (.list items) ∧ List.Forall₂ CarriesSource items form.sources ∧
    v.get? "save" = some (.bool form.save)

section Forms

variable {α : Type} {check : Check α} {a default : α} {absent : List Complaint} {path : List Step}
  {key : String} {v : Value} {fields : List (String × Value)} {items : List Value} {as : List α}

theorem checkPart_eq (hv : fields.lookup key = some v) (hcheck : ∀ path, check path v = .ok a) :
    checkPart fields path key default absent check = (a, []) := by
  rw [checkPart, hv]
  simp only [hcheck]

/-- A list serves if each of its items does. -/
theorem itemsAt_eq (h : List.Forall₂ (fun v a => ∀ path, check path v = .ok a) items as) :
    itemsAt check path (.list items) = .ok as := by
  have hresults : ∀ first, ((items.zipIdx first).map fun placed =>
      check (path ++ [Step.place placed.2]) placed.1) = as.map .ok := by
    induction h with
    | nil => exact fun _ => rfl
    | cons hitem _ ih => exact fun first => congrArg₂ List.cons (hitem _) (ih (first + 1))
  unfold itemsAt
  simp [hresults 0]

theorem optionalTextAt_ofText? (text? : Option String) (path : List Step) :
    optionalTextAt path (.ofText? text?) = .ok text? := by
  cases text? <;> rfl

/-- A text that may be absent is absent where there is null or nothing. -/
theorem checkField_optionalText {text? : Option String}
    (h : (fields.lookup key).getD .null = .ofText? text?) :
    checkField fields path key none optionalTextAt = (text?, []) := by
  cases hlookup : fields.lookup key with
  | none =>
    rw [hlookup] at h
    rw [checkField, checkPart, hlookup]
    cases text? with
    | none => rfl
    | some text => cases h
  | some v =>
    rw [hlookup, Option.getD_some] at h
    exact checkPart_eq hlookup (h ▸ optionalTextAt_ofText? text?)

theorem sourceAt_eq {source : Option String × String} (h : CarriesSource v source) :
    sourceAt path v = .ok source := by
  obtain ⟨hfile, htext⟩ := h
  cases v with
  | object fields =>
    have hfile : checkField fields path "path" none optionalTextAt = (source.1, []) :=
      checkField_optionalText hfile
    have htext : checkNeeded fields path "text" "" textAt = (source.2, []) :=
      checkPart_eq htext fun _ => rfl
    have hfields : objectAt .parts path (.object fields) = .ok fields := rfl
    rw [sourceAt, hfields, Document.ok_bind, hfile, htext]
    rfl
  | _ => cases htext

/-- With a name and with sources, a body is taken for the form that it carries. -/
theorem read_of_carries {body : Body} {form : SourceForm} (h : body.Carries form)
    (hname : form.name ≠ "") (hsources : form.sources ≠ []) : SourceForm.read body = .ok form := by
  obtain ⟨v, items, hbody, hgiven, hitems, hcarried, hsave⟩ := h
  cases v with
  | object fields =>
    have hparts : body.parts = .ok fields := by
      rw [Body.parts, hbody]
      rfl
    have hname : checkField fields bodyPath "name" "Untitled" someTextAt = (form.name, []) :=
      checkPart_eq hgiven fun path => by simp [someTextAt, hname]
    have hsources : checkNeeded fields bodyPath "sources" [] sourcesAt = (form.sources, []) := by
      refine checkPart_eq hitems fun path => ?_
      have hall : itemsAt sourceAt path (.list items) = .ok form.sources :=
        itemsAt_eq (hcarried.imp fun _ _ h _ => sourceAt_eq h)
      rw [sourcesAt, hall, Document.ok_bind, if_neg (by simpa using hsources)]
    have hsave : checkField fields bodyPath "save" false truthAt = (form.save, []) :=
      checkPart_eq hsave fun _ => rfl
    rw [SourceForm.read, hparts, Document.ok_bind, hname, hsources, hsave]
    rfl
  | _ => cases hgiven

/-- An object under the right key of a body is taken for the document. -/
theorem documentIn_eq {body : Body} {document : List (String × Value)} (hbody : body.read = .ok v)
    (hgiven : v.get? "diagram" = some (.object document)) :
    documentIn body = .ok (.object document) := by
  cases v with
  | object fields =>
    have hparts : body.parts = .ok fields := by
      rw [Body.parts, hbody]
      rfl
    have hdocument : checkNeeded fields bodyPath "diagram" (Value.object [])
        (fun path v => (objectAt .mapping path v).map .object) = (.object document, []) :=
      checkPart_eq hgiven fun _ => rfl
    rw [documentIn, hparts, Document.ok_bind, hdocument]
    rfl
  | _ => cases hgiven

end Forms

end ClassAtlas.Http
