import GraphStore.Error
import GraphStore.Index.Descriptor

/-!
Contract: the indexes that are defined, and what jobs ask of them.

Owns the settings of the index layer with the names of its stores, definitions by name, changes of
status, the field names of external indexes, and the reserved elements.
-/

namespace GraphStore

structure IndexOptions where
  /-- What replaces references to keys without a field. -/
  unknownKeyName : String
  /-- The store of the rows of composite indexes. -/
  indexStore : String
  /-- The store of the rows of elements. -/
  edgeStore : String
deriving DecidableEq, Repr

def IndexOptions.standard : IndexOptions := ⟨"__unknown_key__", "graphindex", "edgestore"⟩

/-- Defined indexes, mapped fields by external index and key, and the range of
reserved elements. -/
structure Schema where
  indexes : OrderedMap String IndexDescriptor
  fields : OrderedMap String (OrderedMap String String)
  reserved : Option (UInt64 × UInt64)

namespace Schema

/-- No definitions, and no reserved elements. -/
def empty : Schema := ⟨.empty, .empty, none⟩

/-- Reserves the elements from `start` up to, but not including, `stop`. -/
def withReserved (schema : Schema) (start stop : UInt64) : Schema :=
  { schema with reserved := some (start, stop) }

/-- Defines an index, in place of an earlier one of its name. -/
def define (schema : Schema) (index : IndexDescriptor) : Schema :=
  { schema with indexes := schema.indexes.insert index.name index }

def index (schema : Schema) (name : String) : Result IndexDescriptor :=
  match schema.indexes.find? name with
  | some index => .ok index
  | none => .error (.notFound (.index name))

def setStatus (schema : Schema) (name : String) (status : SchemaStatus) : Result Schema := do
  let index ← schema.index name
  return { schema with indexes := schema.indexes.insert name (index.withStatus status) }

/-- Gives a key a field name in an external index. -/
def mapField (schema : Schema) (backingIndex key field : String) : Schema :=
  let names := schema.fields.findD backingIndex .empty
  { schema with fields := schema.fields.insert backingIndex (names.insert key field) }

/-- The field name of a key in an external index. -/
def storageField? (schema : Schema) (backingIndex key : String) : Option String :=
  (schema.fields.find? backingIndex).bind fun names => names.find? key

def isReserved (schema : Schema) (element : UInt64) : Bool :=
  match schema.reserved with
  | some (start, stop) => start ≤ element && element < stop
  | none => false

end Schema

end GraphStore
