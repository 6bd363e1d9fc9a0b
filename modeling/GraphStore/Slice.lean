import GraphStore.Error

/-!
Contract: column ranges of one row.

Owns entries, slices with their constructors, membership of a column, and the cut of
a column-ordered entry list. A slice is half open and may cap the number of entries.
-/

namespace GraphStore

/-- A column of a row with its value. -/
structure Entry where
  column : Bytes
  value : Bytes
deriving DecidableEq, Repr

/-- The columns from `start` up to, but not including, `stop`, and at most `limit`
of them. -/
structure Slice where
  start : Bytes
  stop : Bytes
  limit : Option Nat
deriving DecidableEq, Repr

namespace Slice

/-- The unlimited slice between two bounds, which must not be inverted. -/
def between (start stop : Bytes) : Result Slice :=
  if stop < start then .error (.invalidArgument (.sliceInverted start stop))
  else .ok ⟨start, stop, none⟩

/-- The slice that stands for a whole row: from a zero byte to 128 bytes `FF`. -/
def fullRow : Slice := ⟨Bytes.zeros 1, Bytes.ones 128, none⟩

/-- The columns that start with `stem`. Without a least bound above them the slice
ends at a string of `FF` that is 128 bytes longer than the stem. -/
def ofPrefix (stem : Bytes) : Slice :=
  ⟨stem, (Bytes.nextPrefix stem).getD (Bytes.ones (stem.length + 128)), none⟩

/-- The slice with another cap, which must be positive. -/
def withLimit (slice : Slice) (limit : Nat) : Result Slice :=
  if limit = 0 then .error (.invalidArgument .zeroSliceLimit)
  else .ok { slice with limit := some limit }

/-- Whether a column lies between the bounds. -/
def contains (slice : Slice) (column : Bytes) : Bool :=
  !(column < slice.start) && column < slice.stop

def cap (slice : Slice) (entries : List Entry) : List Entry :=
  match slice.limit with
  | some limit => entries.take limit
  | none => entries

/-- The part of a column-ordered list that lies in the slice, up to the cap. -/
def cut (slice : Slice) (entries : List Entry) : List Entry :=
  slice.cap ((entries.dropWhile (·.column < slice.start)).takeWhile (·.column < slice.stop))

/-- The order of two optional caps: no cap comes first. -/
def compareLimits : Option Nat → Option Nat → Ordering
  | none, none => .eq
  | none, some _ => .lt
  | some _, none => .gt
  | some left, some right => compare left right

/-- The order of byte strings as a comparison. -/
def compareBytes (left right : Bytes) : Ordering :=
  if left < right then .lt else if right < left then .gt else .eq

/-- Slices in order of their starts, then of their stops, then of their caps. -/
def compare (left right : Slice) : Ordering :=
  (compareBytes left.start right.start).then
    ((compareBytes left.stop right.stop).then (compareLimits left.limit right.limit))

end Slice

end GraphStore
