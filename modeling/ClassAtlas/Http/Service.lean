import ClassAtlas.Analysis
import ClassAtlas.Document.Read
import ClassAtlas.Document.Texts
import ClassAtlas.Document.Write
import ClassAtlas.Http.Form
import ClassAtlas.Http.Route
import ClassAtlas.Inference.Written
import ClassAtlas.Java.Written
import ClassAtlas.Store.Database

/-! The service that answers requests. It keeps diagrams in a store if it has one; the routes to stored
diagrams are closed without it. -/

namespace ClassAtlas.Http

structure Server where
  settings : Settings := {}
  database? : Option Store.Database := none
  supply : Supply := {}

/-- A failure that no response tells of. -/
inductive Breakdown where
  | fault (f : Document.Fault)
  | misuse (m : Document.Misuse)
  | notSaved (e : Store.SaveError)
  | refused (r : Refusal)
  | limitTooLarge

/-- Why work on a request ends early: a response is ready, or there will be none. -/
inductive Ending where
  | response (r : Response)
  | breakdown (b : Breakdown)

abbrev Work (α : Type) := ExceptT Ending (StateM Server) α

/-- A response that only tells what is wrong. -/
def detail (status : Nat) (text : String) : Response := ⟨status, .object [("detail", .str text)]⟩

def refuse {α : Type} (status : Nat) (text : String) : Work α :=
  throw (.response (detail status text))

def stepValue : Schema.Step → Value
  | .key name => .str name
  | .place i => .int i

def complaintValue (c : Schema.Complaint) : Value := .object [
  ("type", .str c.demand.word),
  ("loc", .list (c.path.map stepValue)),
  ("msg", .str c.demand.sentence)]

/-- What a form holds; its complaints become the response. -/
def accept {α : Type} (form : Form α) : Work α :=
  match form with
  | .ok a => return a
  | .error complaints =>
    throw (.response ⟨422, .object [("detail", .list (complaints.map complaintValue))]⟩)

/-- The store, without which there is nothing to answer. -/
def requireDatabase : Work Store.Database := do
  match (← get).database? with
  | some db => return db
  | none => refuse 503 "Diagram storage not available"

def useTexts {α : Type} (result : Except Document.Misuse α) : Work α :=
  match result with
  | .ok a => return a
  | .error m => throw (.breakdown (.misuse m))

/-- Runs work that draws from the supply. -/
def drawing {α : Type} (work : Making Document.Fault α) : Work (Except Document.Fault α) :=
  modifyGet fun s => let (result, supply) := work.run s.supply; (result, { s with supply })

/-- The diagram of a document that was sent. -/
def readDocument (document : Value) : Work (DiagramOf Value) := do
  match ← drawing (Document.read document) with
  | .ok d => return d
  | .error .numberTooLarge => throw (.breakdown (.fault .numberTooLarge))
  | .error f =>
    if f.isDangling then refuse 400 f.message
    else refuse 400 ("Invalid diagram document: " ++ f.message)

/-- A stored diagram. -/
def loadStored (db : Store.Database) (id : String) : Work (DiagramOf Value) := do
  match ← drawing (db.load id) with
  | .ok (some d) => return d
  | .ok none => refuse 404 ("Diagram " ++ id ++ " not found")
  | .error f => throw (.breakdown (.fault f))

def ok (body : Value) : Response := ⟨200, body⟩

def validationBody (issues : List String) : Value := .object [
  ("valid", .bool issues.isEmpty), ("issues", Value.texts issues)]

/-! ## Answers -/

def health : Work Response := do
  return ok (.object [
    ("status", .str "ok"),
    ("service", .str "classloom"),
    ("storage", .bool (← get).database?.isSome)])

def extract (r : Request) : Work Response := do
  let form ← accept (ExtractForm.read r.body)
  let records := Java.extract form.source form.namespaceHint
  return ok (.object [
    ("types", .list (records.map (·.withPlace))), ("count", .int records.length)])

/-- What is answered about a diagram built from sources. -/
def analysisBody (a : Analysis) (saved : Bool) : Value := .object [
  ("diagram", Document.write a.diagram),
  ("saved", .bool saved),
  ("extraction_issues", .list []),
  ("ambiguities", .list (a.report.ambiguities.map (·.toValue))),
  ("unresolved_supertypes", .list (a.report.unresolved.map (·.toValue))),
  ("validation_issues", Value.texts a.diagram.validate)]

/-- Stores a diagram. -/
def save (d : Diagram) : Work Unit := do
  let db ← requireDatabase
  match db.save d with
  | .ok db => modify fun s => { s with database? := some db }
  | .error e => throw (.breakdown (.notSaved e))

def fromSource (r : Request) : Work Response := do
  let form ← accept (SourceForm.read r.body)
  let s ← get
  match Analysis.ofSources s.settings form.name form.sources s.supply with
  | .error e => throw (.breakdown (.refused e))
  | .ok (a, supply) =>
    set { s with supply }
    if form.save then save a.diagram
    return ok (analysisBody a form.save)

def validate (r : Request) : Work Response := do
  let d ← readDocument (← accept (documentIn r.body))
  return ok (validationBody (← useTexts (Document.validate d)))

def generate (r : Request) : Work Response := do
  let d ← readDocument (← accept (documentIn r.body))
  let files ← useTexts (Document.units (← get).settings.generator d)
  return ok (.object [
    ("files", .object (files.map fun (path, text) => (path, .str text))),
    ("count", .int files.length)])

def listDiagrams (r : Request) : Work Response := do
  let db ← requireDatabase
  let limit ← accept (integerIn r "limit" 20)
  if !Store.fitsColumn limit then throw (.breakdown .limitTooLarge)
  let summaries := db.listRecent limit
  return ok (.object [
    ("diagrams", .list (summaries.map (·.toValue))), ("count", .int summaries.length)])

def diagram (id : String) : Work Response := do
  return ok (Document.write (← loadStored (← requireDatabase) id))

def delete (id : String) : Work Response := do
  let (db, found) := (← requireDatabase).delete id
  if !found then refuse 404 ("Diagram " ++ id ++ " not found")
  modify fun s => { s with database? := some db }
  return ok (.object [("success", .bool true), ("uuid", .str id)])

def validation (id : String) : Work Response := do
  let d ← loadStored (← requireDatabase) id
  return ok (validationBody (← useTexts (Document.validate d)))

def plantUml (id : String) : Work Response := do
  let d ← loadStored (← requireDatabase) id
  return ok (.str (← useTexts (Document.render d)))

/-- Answers a request on its route. -/
def answer (r : Request) : Route → Work Response
  | .health => health
  | .extract => extract r
  | .fromSource => fromSource r
  | .validate => validate r
  | .generate => generate r
  | .list => listDiagrams r
  | .diagram id => diagram id
  | .delete id => delete id
  | .validation id => validation id
  | .plantUml id => plantUml id

/-- Answers a request; also gives the server as it is afterwards. -/
def handle (r : Request) (s : Server) : Except Breakdown Response × Server :=
  match Match.ofRequest r.method r.path with
  | .nothing => (.ok (detail 404 "Not Found"), s)
  | .wrongMethod => (.ok (detail 405 "Method Not Allowed"), s)
  | .found route =>
    match (answer r route).run s with
    | (.ok response, s) => (.ok response, s)
    | (.error (.response response), s) => (.ok response, s)
    | (.error (.breakdown b), s) => (.error b, s)

end ClassAtlas.Http
