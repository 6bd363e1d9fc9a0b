import GraphStore.Index.Descriptor
import GraphStore.Value.Codec

/-!
Contract: the rows of composite indexes.

Owns row keys and cells. The key of a row is the index number followed by the encoded
values, so the rows of an index are adjacent and ascend with their values. An index
that is not unique has one column per element; a unique one has a single column with
the element as its value.
-/

namespace GraphStore

open Encoding

structure IndexCell where
  key : Bytes
  entry : Entry
deriving DecidableEq, Repr

/-- The index number at the front of a row key. -/
def indexIdOfKey (key : Bytes) : Result UInt64 := leadingUInt64 key

namespace IndexDescriptor

def uniqueColumn : Bytes := [0]

/-- Fails unless the index has rows of its own and a field for each value. -/
def checkComposite (index : IndexDescriptor) (values : List Value) : Result Unit := do
  if !index.isComposite then
    throw (.invalidArgument (.notComposite index.name index.indexType.label))
  if values.length ≠ index.fields.length then
    throw (.invalidArgument (.fieldCount index.name index.fields.length values.length))

/-- The encodings of values as the given types, one after another. -/
def writeValues : List DataType → List Value → Result Bytes
  | dataType :: dataTypes, value :: values => do
    let first ← dataType.write value
    let others ← writeValues dataTypes values
    return first ++ others
  | _, _ => return []

def compositeKey (index : IndexDescriptor) (values : List Value) : Result Bytes := do
  index.checkComposite values
  let fields ← writeValues index.fieldTypes values
  return Bytes.ofUInt64 index.id ++ fields

def readValues : List DataType → Read (List Value)
  | [] => return []
  | dataType :: dataTypes => do
    let first ← dataType.read
    let others ← readValues dataTypes
    return first :: others

def readKey (index : IndexDescriptor) (key : Bytes) : Read (List Value) := do
  let id ← Read.uint64
  if id ≠ index.id then
    Read.damaged (.foreignIndexKey key id index.id)
  let values ← readValues index.fieldTypes
  Read.finish fun count => .trailingIndexKey count key
  return values

def decodeValues (index : IndexDescriptor) (key : Bytes) : Result (List Value) :=
  (index.readKey key).answer key

/-- The cell that records an element under a combination of values. -/
def indexCell (index : IndexDescriptor) (values : List Value) (element : UInt64) :
    Result IndexCell := do
  let key ← index.compositeKey values
  let id := Bytes.ofUInt64 element
  return ⟨key, if index.unique then ⟨uniqueColumn, id⟩ else ⟨id, []⟩⟩

/-- The element that an entry of an index row records. -/
def elementOfEntry (index : IndexDescriptor) (entry : Entry) : Result UInt64 :=
  leadingUInt64 (if index.unique then entry.value else entry.column)

/-- The row key and the slice that hold the elements of a combination of values. -/
def lookup (index : IndexDescriptor) (values : List Value) : Result (Bytes × Slice) := do
  let key ← index.compositeKey values
  return (key, Slice.fullRow)

end IndexDescriptor

end GraphStore
