import GraphStore.Document.Failure
import GraphStore.Document.Value
import GraphStore.Index.Query

/-!
Contract: definitions of indexes and queries to them as documents.

Owns the forms of parameters, key registries, descriptors and how they are built, schemas,
query builders, queries and hits, and providers that answer always alike.
-/

namespace GraphStore.Document

/-! ### Keys -/

def asParameter (document : Json) : Reading Parameter := do
  match ← asArr document with
  | [key, value] => return ⟨← asStr key, value⟩
  | _ => malformed "parameter"

def parameters (parameters : List Parameter) : Json := list Parameter.toDocument parameters

def asKeyInfo (document : Json) : Reading KeyInfo := accept (KeyInfo.ofDocument? document)

def asRegisteredKey (registry : KeyRegistry) (document : Json) : Reading KeyRegistry := do
  match ← asArr document with
  | index :: store :: key :: info :: more =>
    let given ← match more with
      | [given] => asList asParameter given
      | _ => pure []
    let info := given.foldl KeyInfo.withParameter (← asKeyInfo info)
    return registry.register (← asStr index) (← asStr store) (← asStr key) info
  | _ => malformed "key"

/-- What is known of a key, and the value of one of its parameters. -/
def keyInfo (info : KeyInfo) (parameter : Option String) : Json :=
  let found := match parameter.bind info.parameter? with
    | some value => Json.arr [value]
    | none => .str "none"
  .obj [("type", dataType info.dataType), ("cardinality", .str info.cardinality.documentName),
    ("parameters", parameters info.parameters), ("parameter", found),
    ("json", info.toDocument)]

/-! ### Descriptors -/

def asDescriptor (document : Json) : Reading IndexDescriptor :=
  accept (IndexDescriptor.ofDocument? document)

def asStatus (document : Json) : Reading SchemaStatus :=
  accept (SchemaStatus.ofDocument? document)

/-- A key without parameters. -/
def asPlainField (document : Json) : Reading IndexField := do
  match ← asArr document with
  | [key, dataType, cardinality] =>
    return ⟨← asStr key,
      .new (← asType dataType) (← accept (Cardinality.ofDocument? cardinality))⟩
  | _ => malformed "field"

def asBuiltDescriptor (parts : Json) : Reading IndexDescriptor := do
  let index := IndexDescriptor.composite (← getStr parts "name") (← getWord parts "id")
    (← getList parts "fields" asPlainField)
  let index := index.withStatus (← getOr parts "status" index.status asStatus)
  return if ← getFlag parts "unique" then index.asUnique else index

def descriptor (index : IndexDescriptor) : Json :=
  .obj [("composite", flag index.isComposite), ("mixed", flag index.isMixed),
    ("label", .str index.indexType.label),
    ("slice", optional (outcome slice) index.relationSlice?),
    ("status", .str index.status.label), ("id", .str (toString index.id.toNat)),
    ("json", index.toDocument)]

def asMappedField (schema : Schema) (document : Json) : Reading Schema := do
  match ← asList asStr document with
  | [backingIndex, key, field] => return schema.mapField backingIndex key field
  | _ => malformed "mapped field"

/-- A schema of given definitions and mapped fields. -/
def asSchema (parts : Json) : Reading Schema := do
  let indexes ← getList parts "indexes" asDescriptor
  (← getList parts "fields" pure).foldlM asMappedField (indexes.foldl .define .empty)

/-! ### Queries -/

def asCategory : String → Reading ElementCategory
  | "vertex" => .ok .vertex
  | "edge" => .ok .edge
  | "property" => .ok .property
  | _ => malformed "category"

def asQueryBuilder (parts : Json) : Reading IndexQueryBuilder := do
  return {
    index := ← get? parts "index" asStr
    query := ← get? parts "query" asStr
    stem := ← get? parts "identifier" asStr
    offset := ← getOr parts "offset" 0 asUInt64
    limit := ← get? parts "limit" asUInt64
    parameters := ← getList parts "parameters" asParameter }

def indexQuery (query : IndexQuery) : Json :=
  .obj [("index", .str query.index), ("query", .str query.query), ("prefix", .str query.stem),
    ("offset", word query.offset), ("limit", optional word query.limit),
    ("parameters", parameters query.parameters)]

def rawQuery (raw : RawQuery) : Json :=
  .obj [("store", .str raw.store), ("query", .str raw.query),
    ("parameters", parameters raw.parameters), ("offset", word raw.offset),
    ("limit", optional word raw.limit)]

def asHit (document : Json) : Reading IndexHit := do
  match ← asArr document with
  | [element, score] => return ⟨← asUInt64 element, ← asDouble score⟩
  | _ => malformed "hit"

def hit (hit : IndexHit) : Json := .arr [word hit.element, double hit.score]

/-- A provider that answers always alike and keeps what it receives. -/
def asProvider (document : Json) : Reading (IndexProvider (List RawQuery)) := do
  let answer : Result (List IndexHit) ← match ← get? document "error" asFailure with
    | some cause => pure (.error cause)
    | none => .ok <$> getList document "hits" asHit
  return fun raw received => (answer, received ++ [raw])

end GraphStore.Document
