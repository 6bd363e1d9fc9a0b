import GraphStore.Error

/-!
Contract: ranges of row keys.

Owns half-open ranges, bounded or not, their constructors, membership and emptiness.
-/

namespace GraphStore

/-- The keys from `start` up to, but not including, `stop`; without `stop` all keys
from `start` on. -/
structure KeyRange where
  start : Bytes
  stop : Option Bytes
deriving DecidableEq, Repr

namespace KeyRange

/-- The range between two bounds, which must not be inverted. -/
def between (start stop : Bytes) : Result KeyRange :=
  if stop < start then .error (.invalidArgument (.rangeInverted start stop))
  else .ok ⟨start, some stop⟩

def startingAt (start : Bytes) : KeyRange := ⟨start, none⟩

def full : KeyRange := startingAt []

def upTo (start : Bytes) (stop : Option Bytes) : Result KeyRange :=
  match stop with
  | some stop => between start stop
  | none => .ok (startingAt start)

/-- Whether a key lies below the stop. -/
def below (range : KeyRange) (key : Bytes) : Bool :=
  match range.stop with
  | some stop => key < stop
  | none => true

def contains (range : KeyRange) (key : Bytes) : Bool :=
  !(key < range.start) && range.below key

def isEmpty (range : KeyRange) : Bool :=
  match range.stop with
  | some stop => !(range.start < stop)
  | none => false

end KeyRange

end GraphStore
