import ClassAtlas.Document.Write
import ClassAtlas.Java.Extract

/-! Type records as values. -/

namespace ClassAtlas.Java.TypeRecord

/-- What a record says of the type itself. -/
def fieldsOfType (r : TypeRecord) : List (String × Value) := [
  ("name", .str r.name),
  ("namespace", .str r.namespaceName),
  ("kind", .str r.kind.word),
  ("is_abstract", .bool r.isAbstract),
  ("superclass", Value.ofText? r.superclass),
  ("interfaces", Value.texts r.interfaces),
  ("fields", .list (r.fields.map Document.writeField)),
  ("operations", .list (r.operations.map Document.writeOperation)),
  ("literals", Value.texts r.literals)]

/-- The record with the file that it comes from. -/
def withFile (r : TypeRecord) : Value :=
  .object (r.fieldsOfType ++ [("file_path", Value.ofText? r.filePath)])

/-- The record with its full name and the line on which it starts. -/
def withPlace (r : TypeRecord) : Value :=
  .object (r.fieldsOfType ++
    [("qualified_name", .str r.qualifiedName), ("start_line", .int r.startLine)])

end ClassAtlas.Java.TypeRecord
