import ClassAtlas.Diagram.Grid
import ClassAtlas.Inference.Report
import ClassAtlas.Java.Extract

/-! Building a diagram from type records. All classifiers are entered before any name is resolved, so
references across files see the complete set. -/

namespace ClassAtlas.Assembly

/-- A classifier with the contents of a record; it has neither a key nor an id yet. -/
def classifierOf (r : Java.TypeRecord) : Classifier :=
  { key := 0, id := "", name := r.name, namespaceName := r.namespaceName, kind := r.kind
    isAbstract := r.isAbstract, fields := r.fields, operations := r.operations
    literals := r.literals, declaredSuperclass := r.superclass
    declaredInterfaces := r.interfaces, box := Box.standard, style := {} }

/-- Enters one classifier for each record, in order. -/
def addRecords (d : Diagram) (supply : Supply) : List Java.TypeRecord →
    Except Refusal (Diagram × Supply)
  | [] => .ok (d, supply)
  | r :: rest =>
    let (c, supply) := supply.enrolClassifier (classifierOf r)
    (d.addClassifier c).bind fun d => addRecords d supply rest

/-- A diagram of the records alone. -/
def ofRecords (name : String) (records : List Java.TypeRecord) (supply : Supply) :
    Except Refusal (Diagram × Supply) :=
  let (d, supply) := DiagramOf.empty name "" none none none supply
  addRecords d supply records

/-- A merge that was refused gives no diagram. -/
def mergedOrRefused (m : Inference.Merged String) : Except Refusal Diagram :=
  match m.refusal with
  | some e => .error e
  | none => .ok m.diagram

structure Options where
  infer : Bool := true
  withSupertypes : Bool := true
  searchOrder : List String := []
  arrange : Bool := true

/-- A diagram of the records with the edges and places that the options ask for. -/
def build (name : String) (records : List Java.TypeRecord) (options : Options) (supply : Supply) :
    Except Refusal (Diagram × Supply) := do
  let (d, supply) ← ofRecords name records supply
  let (report, supply) :=
    if options.infer then Inference.analyze d options.searchOrder options.withSupertypes supply
    else (⟨[], [], []⟩, supply)
  let d ← mergedOrRefused (Inference.merge d report.relationships)
  return (if options.arrange then d.arrange .standard else d, supply)

end ClassAtlas.Assembly
