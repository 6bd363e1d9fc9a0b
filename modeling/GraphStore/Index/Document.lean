import GraphStore.Index.Descriptor
import GraphStore.Json.Basic

/-!
Contract: index definitions as JSON documents.

Owns writing and reading of key information and descriptors. Every field is required.
-/

namespace GraphStore

namespace DataType

def documentName : DataType → String
  | boolean => "boolean"
  | integer => "integer"
  | long => "long"
  | double => "double"
  | string => "string"
  | bytes => "bytes"

def all : List DataType := [boolean, integer, long, double, string, bytes]

def ofDocument? (document : Json) : Option DataType := do
  let name ← document.bareAlternative?
  all.find? fun dataType => dataType.documentName = name

end DataType

namespace Cardinality

def documentName : Cardinality → String
  | single => "single"
  | list => "list"
  | set => "set"

def ofDocument? (document : Json) : Option Cardinality := do
  let name ← document.bareAlternative?
  [single, list, set].find? fun cardinality => cardinality.documentName = name

end Cardinality

namespace SchemaStatus

def ofDocument? (document : Json) : Option SchemaStatus := do
  let name ← document.bareAlternative?
  [installed, registered, enabled, disabled].find? fun status => status.label = name

end SchemaStatus

namespace Parameter

def toDocument (parameter : Parameter) : Json :=
  .object [("key", .str parameter.key), ("value", parameter.value)]

def ofDocument? (document : Json) : Option Parameter := do
  match ← document.completeRecord? ["key", "value"] with
  | [key, value] => some ⟨← key.asString?, value⟩
  | _ => none

end Parameter

namespace KeyInfo

def toDocument (info : KeyInfo) : Json :=
  .object [
    ("data_type", .str info.dataType.documentName),
    ("cardinality", .str info.cardinality.documentName),
    ("parameters", .arr (info.parameters.map Parameter.toDocument))]

def ofDocument? (document : Json) : Option KeyInfo := do
  match ← document.completeRecord? ["data_type", "cardinality", "parameters"] with
  | [dataType, cardinality, parameters] =>
    some ⟨← DataType.ofDocument? dataType, ← Cardinality.ofDocument? cardinality,
      ← parameters.list? Parameter.ofDocument?⟩
  | _ => none

end KeyInfo

namespace IndexType

/-- A byte string as a list of numbers. -/
def bytesDocument (bytes : Bytes) : Json := .arr (bytes.map fun byte => .int byte.toNat)

def bytesOfDocument? (document : Json) : Option Bytes := document.list? Json.asUInt8?

def toDocument : IndexType → Json
  | composite => .str "composite"
  | mixed backingIndex => .object [("mixed", .object [("backing_index", .str backingIndex)])]
  | relationType start stop =>
    .object [("relation_type", .object [
      ("column_start", bytesDocument start), ("column_end", bytesDocument stop)])]

/-- A field of an alternative whose content is an object. -/
def contentField? (content : Option Json) (name : String) : Option Json := do
  (← content).field? name

def ofDocument? (document : Json) : Option IndexType := do
  match ← document.alternative? with
  | ("composite", none) | ("composite", some .null) => some .composite
  | ("mixed", content) =>
    some (.mixed (← (← contentField? content "backing_index").asString?))
  | ("relation_type", content) =>
    some (.relationType (← bytesOfDocument? (← contentField? content "column_start"))
      (← bytesOfDocument? (← contentField? content "column_end")))
  | _ => none

end IndexType

namespace IndexField

def toDocument (field : IndexField) : Json :=
  .object [("key", .str field.key), ("info", field.info.toDocument)]

def ofDocument? (document : Json) : Option IndexField := do
  match ← document.completeRecord? ["key", "info"] with
  | [key, info] => some ⟨← key.asString?, ← KeyInfo.ofDocument? info⟩
  | _ => none

end IndexField

namespace IndexDescriptor

def toDocument (index : IndexDescriptor) : Json :=
  .object [
    ("name", .str index.name),
    ("id", .ofUInt64 index.id),
    ("index_type", index.indexType.toDocument),
    ("status", .str index.status.label),
    ("fields", .arr (index.fields.map IndexField.toDocument)),
    ("unique", .bool index.unique)]

/-- The names of the fields of a descriptor document, in order. -/
def documentFields : List String := ["name", "id", "index_type", "status", "fields", "unique"]

def ofDocument? (document : Json) : Option IndexDescriptor := do
  match ← document.completeRecord? documentFields with
  | [name, id, indexType, status, fields, unique] =>
    some ⟨← name.asString?, ← id.asUInt64?, ← IndexType.ofDocument? indexType,
      ← SchemaStatus.ofDocument? status, ← fields.list? IndexField.ofDocument?,
      ← unique.asBool?⟩
  | _ => none

end IndexDescriptor

end GraphStore
