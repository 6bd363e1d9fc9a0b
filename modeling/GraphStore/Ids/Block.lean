import GraphStore.Bytes

/-!
Contract: blocks of identifiers.

Owns the half-open ranges that an authority grants for a partition and a namespace,
and the sizes and bounds of the blocks of a namespace.
-/

namespace GraphStore

/-- The identifiers from `start` up to, but not including, `stop`, of one partition
and namespace. -/
structure IdBlock where
  partitionId : UInt32
  namespaceId : UInt32
  start : UInt64
  stop : UInt64
deriving DecidableEq, Repr

namespace IdBlock

def length (block : IdBlock) : UInt64 := block.stop - block.start

def isEmpty (block : IdBlock) : Bool := block.start = block.stop

/-- Whether an identifier lies in the block. -/
def contains (block : IdBlock) (id : UInt64) : Bool := block.start ≤ id && id < block.stop

def firstIds (block : IdBlock) (count : Nat) : List UInt64 :=
  (List.range (min count (block.stop.toNat - block.start.toNat))).map fun index =>
    block.start + UInt64.ofNat index

/-- Whether two blocks of the same partition and namespace share an identifier. -/
def overlaps (left right : IdBlock) : Bool :=
  left.partitionId = right.partitionId && left.namespaceId = right.namespaceId
    && left.start < right.stop && right.start < left.stop

def text (block : IdBlock) : String :=
  "IdBlock(p" ++ toString block.partitionId.toNat ++ "/n" ++ toString block.namespaceId.toNat
    ++ " [" ++ toString block.start.toNat ++ ", " ++ toString block.stop.toNat ++ "))"

end IdBlock

/-- The size of the blocks of a namespace and the bound of its identifiers. -/
structure BlockShape where
  size : UInt64
  upperBound : UInt64
deriving DecidableEq, Repr

structure BlockSizer where
  default : BlockShape
  overrides : List (UInt32 × BlockShape)
deriving DecidableEq, Repr

namespace BlockSizer

def uniform (size upperBound : UInt64) : BlockSizer := ⟨⟨size, upperBound⟩, []⟩

/-- The sizer with a shape of its own for one namespace, in place of an earlier one. -/
def withNamespace (sizer : BlockSizer) (namespaceId : UInt32) (shape : BlockShape) :
    BlockSizer :=
  { sizer with overrides := (namespaceId, shape) :: sizer.overrides }

def shape (sizer : BlockSizer) (namespaceId : UInt32) : BlockShape :=
  (sizer.overrides.lookup namespaceId).getD sizer.default

end BlockSizer

end GraphStore
