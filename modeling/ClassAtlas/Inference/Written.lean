import ClassAtlas.Inference.Report
import ClassAtlas.Value.Basic

/-! The parts of a report as values. -/

namespace ClassAtlas.Inference

def Ambiguity.toValue (a : Ambiguity) : Value := .object [
  ("owner", .str a.owner),
  ("reference", .str a.reference),
  ("candidates", Value.texts a.candidates),
  ("chosen", .str a.chosen)]

def Unresolved.toValue (u : Unresolved) : Value := .object [
  ("owner", .str u.owner),
  ("supertype", .str u.supertype),
  ("relation", .str u.relation.word)]

end ClassAtlas.Inference
