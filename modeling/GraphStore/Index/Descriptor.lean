import GraphStore.Index.KeyInfo
import GraphStore.Slice

/-!
Contract: index definitions.

Owns the kinds of indexes, their lifecycle states, and descriptors.
-/

namespace GraphStore

inductive SchemaStatus where
  | installed
  | registered
  | enabled
  | disabled
deriving DecidableEq, Repr

def SchemaStatus.label : SchemaStatus → String
  | installed => "installed"
  | registered => "registered"
  | enabled => "enabled"
  | disabled => "disabled"

/-- The kind of an index: rows of its own in the index store, an index kept by an
external system, or a range of columns in the rows of elements. -/
inductive IndexType where
  | composite
  | mixed (backingIndex : String)
  | relationType (columnStart columnStop : Bytes)
deriving DecidableEq, Repr

def IndexType.label : IndexType → String
  | composite => "composite"
  | mixed _ => "mixed"
  | relationType _ _ => "relation_type"

structure IndexField where
  key : String
  info : KeyInfo
deriving Repr

structure IndexDescriptor where
  name : String
  id : UInt64
  indexType : IndexType
  status : SchemaStatus
  fields : List IndexField
  unique : Bool
deriving Repr

namespace IndexDescriptor

def composite (name : String) (id : UInt64) (fields : List IndexField) : IndexDescriptor :=
  ⟨name, id, .composite, .installed, fields, false⟩

def withStatus (index : IndexDescriptor) (status : SchemaStatus) : IndexDescriptor :=
  { index with status := status }

/-- The index that holds at most one element per combination of values. -/
def asUnique (index : IndexDescriptor) : IndexDescriptor := { index with unique := true }

def isComposite (index : IndexDescriptor) : Bool := index.indexType = .composite

def isMixed (index : IndexDescriptor) : Bool :=
  match index.indexType with
  | .mixed _ => true
  | _ => false

def fieldTypes (index : IndexDescriptor) : List DataType :=
  index.fields.map fun field => field.info.dataType

/-- The column range of a relation-type index. -/
def relationSlice? (index : IndexDescriptor) : Option (Result Slice) :=
  match index.indexType with
  | .relationType start stop => some (Slice.between start stop)
  | _ => none

end IndexDescriptor

end GraphStore
