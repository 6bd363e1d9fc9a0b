import GraphStore.Encoding.Cursor

/-!
Contract: the fields that records and keys are built from.

Owns the field kinds, the bytes of a field and of a sequence of fields, and the
reading step of each kind. Every kind marks its own end, raw bytes through a length
known to the reader.
-/

namespace GraphStore.Encoding

inductive Field where
  | uint8 (value : UInt8)
  | uint32 (value : UInt32)
  | uint64 (value : UInt64)
  | int32 (value : Int32)
  | int64 (value : Int64)
  | double (value : Double)
  | varint (value : UInt64)
  | escaped (content : Bytes)
  | raw (content : Bytes)
deriving DecidableEq, Repr

inductive FieldKind where
  | uint8
  | uint32
  | uint64
  | int32
  | int64
  | double
  | varint
  | escaped
  | raw (length : Nat)
deriving DecidableEq, Repr

namespace Field

def kind : Field → FieldKind
  | uint8 _ => .uint8
  | uint32 _ => .uint32
  | uint64 _ => .uint64
  | int32 _ => .int32
  | int64 _ => .int64
  | double _ => .double
  | varint _ => .varint
  | escaped _ => .escaped
  | raw content => .raw content.length

def encode : Field → Bytes
  | uint8 value => [value]
  | uint32 value => Bytes.ofUInt32 value
  | uint64 value => Bytes.ofUInt64 value
  | int32 value => int32Key value
  | int64 value => int64Key value
  | double value => doubleBitsKey value
  | varint value => Encoding.varint value.toNat
  | escaped content => Encoding.escaped content
  | raw content => content

def encodeAll (fields : List Field) : Bytes := fields.flatMap encode

end Field

def FieldKind.read : FieldKind → Read Field
  | .uint8 => Field.uint8 <$> Read.uint8
  | .uint32 => Field.uint32 <$> Read.uint32
  | .uint64 => Field.uint64 <$> Read.uint64
  | .int32 => Field.int32 <$> Read.int32
  | .int64 => Field.int64 <$> Read.int64
  | .double => Field.double <$> Read.double
  | .varint => Field.varint <$> Read.varint
  | .escaped => Field.escaped <$> Read.escaped
  | .raw length => Field.raw <$> Read.take length

/-- Reads fields of the given kinds, each with the cursor behind it, up to the first
failure. -/
def readFields : List FieldKind → Cursor → List (Field × Cursor) × Option StoreError
  | [], _ => ([], none)
  | kind :: kinds, cursor =>
    match kind.read cursor with
    | (.ok field, behind) =>
      let (fields, failure) := readFields kinds behind
      ((field, behind) :: fields, failure)
    | (.error failure, _) => ([], some failure)

end GraphStore.Encoding
