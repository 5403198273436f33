import ClassAtlas.Schema.Check
import ClassAtlas.Settings.Basic
import ClassAtlas.Text.Blank
import ClassAtlas.Text.Upper

/-! Reading settings from a tree. Absent keys have defaults and unknown keys are ignored. Every part is
checked, and all complaints are given in the order in which the settings are declared. -/

namespace ClassAtlas.Settings

open Schema

def levels : List String := ["DEBUG", "INFO", "WARNING", "ERROR", "CRITICAL"]

/-- A log level, in any case and with blanks around it. -/
def levelAt : Check String := fun path v =>
  let level := Text.upper (Text.strip v.shown)
  if levels.contains level then .ok level else .error [⟨.level, path⟩]

def extractionAt (path : List Step) (fields : List (String × Value)) :
    Checked ExtractionSettings :=
  let (suffixes, c₁) := checkField fields path "source_suffixes" [".java"] textsAt
  let (encoding, c₂) := checkField fields path "encoding" "utf-8" textAt
  let (skip, c₃) := checkField fields path "skip_directories" [] textsAt
  (⟨suffixes, encoding, skip⟩, c₁ ++ c₂ ++ c₃)

def inferenceAt (path : List Step) (fields : List (String × Value)) : Checked InferenceSettings :=
  let (supertypes, c₁) := checkField fields path "synthesize_supertypes" true truthAt
  let (order, c₂) := checkField fields path "namespace_search_order" [] textsAt
  (⟨supertypes, order⟩, c₁ ++ c₂)

def generatorAt (path : List Step) (fields : List (String × Value)) : Checked Java.UnitStyle :=
  let (namespaceName, c₁) := checkField fields path "default_import_namespace" "java.util" textAt
  let (indent, c₂) := checkField fields path "indent" "\t" textAt
  let (suffix, c₃) := checkField fields path "file_suffix" ".java" textAt
  (⟨namespaceName, indent, suffix⟩, c₁ ++ c₂ ++ c₃)

def layoutAt (path : List Step) (fields : List (String × Value)) : Checked (Grid.Options Float) :=
  let standard := Grid.Options.standard
  let (originX, c₁) := checkField fields path "origin_x" standard.originX numberAt
  let (originY, c₂) := checkField fields path "origin_y" standard.originY numberAt
  let (horizontalGap, c₃) := checkField fields path "horizontal_gap" standard.horizontalGap numberAt
  let (verticalGap, c₄) := checkField fields path "vertical_gap" standard.verticalGap numberAt
  let (maxRowWidth, c₅) := checkField fields path "max_row_width" standard.maxRowWidth numberAt
  (⟨originX, originY, horizontalGap, verticalGap, maxRowWidth⟩, c₁ ++ c₂ ++ c₃ ++ c₄ ++ c₅)

/-- The settings of a tree, or everything that is wrong with it. -/
def check (fields : List (String × Value)) : Except (List Complaint) Settings :=
  let (databaseUrl, c₁) := checkField fields [] "database_url" "sqlite:///classloom.db" textAt
  let (logLevel, c₂) := checkField fields [] "log_level" "INFO" levelAt
  let (extraction, c₃) := checkGroup fields [] "extraction" {} extractionAt
  let (inference, c₄) := checkGroup fields [] "inference" {} inferenceAt
  let (generator, c₅) := checkGroup fields [] "generator" {} generatorAt
  let (layout, c₆) := checkGroup fields [] "layout" Grid.Options.standard layoutAt
  settle (⟨databaseUrl, logLevel, extraction, inference, generator, layout⟩,
    c₁ ++ c₂ ++ c₃ ++ c₄ ++ c₅ ++ c₆)

end ClassAtlas.Settings
