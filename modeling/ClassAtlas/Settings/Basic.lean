import ClassAtlas.Diagram.Grid
import ClassAtlas.Java.Unit

/-! The settings of an analysis and their defaults. -/

namespace ClassAtlas

structure ExtractionSettings where
  sourceSuffixes : List String := [".java"]
  encoding : String := "utf-8"
  skipDirectories : List String := []

structure InferenceSettings where
  synthesizeSupertypes : Bool := true
  searchOrder : List String := []

structure Settings where
  databaseUrl : String := "sqlite:///classloom.db"
  logLevel : String := "INFO"
  extraction : ExtractionSettings := {}
  inference : InferenceSettings := {}
  generator : Java.UnitStyle := {}
  layout : Grid.Options Float := Grid.Options.standard

/-- The settings as a tree. -/
def Settings.toValue (s : Settings) : Value := .object [
  ("database_url", .str s.databaseUrl),
  ("log_level", .str s.logLevel),
  ("extraction", .object [
    ("source_suffixes", Value.texts s.extraction.sourceSuffixes),
    ("encoding", .str s.extraction.encoding),
    ("skip_directories", Value.texts s.extraction.skipDirectories)]),
  ("inference", .object [
    ("synthesize_supertypes", .bool s.inference.synthesizeSupertypes),
    ("namespace_search_order", Value.texts s.inference.searchOrder)]),
  ("generator", .object [
    ("default_import_namespace", .str s.generator.defaultNamespace),
    ("indent", .str s.generator.indent),
    ("file_suffix", .str s.generator.fileSuffix)]),
  ("layout", .object [
    ("origin_x", .float s.layout.originX),
    ("origin_y", .float s.layout.originY),
    ("horizontal_gap", .float s.layout.horizontalGap),
    ("vertical_gap", .float s.layout.verticalGap),
    ("max_row_width", .float s.layout.maxRowWidth)])]

end ClassAtlas
