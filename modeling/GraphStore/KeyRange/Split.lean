import GraphStore.Bytes
import GraphStore.KeyRange.Basic

/-!
Contract: cutting a key range into parts of about equal width.

Owns the division by the first eight bytes of the bounds. The parts are disjoint,
adjacent, and together the range; a range too narrow for the wanted number of parts
stays whole.
-/

namespace GraphStore.KeyRange

/-- The number in the first eight bytes of a key, zeros standing in for missing ones. -/
def leadingNumber (key : Bytes) : Nat :=
  Bytes.toNat (key.take 8 ++ Bytes.zeros (8 - key.length))

def stopNumber (range : KeyRange) : Nat :=
  match range.stop with
  | some stop => leadingNumber stop
  | none => Word.count 64

/-- The distance of neighbouring cuts. -/
def stride (range : KeyRange) (parts : Nat) : Nat :=
  (range.stopNumber - leadingNumber range.start) / parts

/-- The eight-byte keys that cut the range, in ascending order: those multiples of the
stride that lie strictly inside. -/
def cuts (range : KeyRange) (parts : Nat) : List Bytes :=
  let candidates := (List.range' 1 (parts - 1)).map fun index =>
    leadingNumber range.start + range.stride parts * index
  ((candidates.takeWhile (· < Word.count 64)).map (Bytes.bigEndian 8)).filter fun cut =>
    range.start < cut && range.below cut

/-- Adjacent ranges from `start` over the cuts to `stop`. -/
def joinCuts (start : Bytes) (stop : Option Bytes) : List Bytes → Result (List KeyRange)
  | [] => do return [← upTo start stop]
  | cut :: cuts => do
    let first ← between start cut
    return first :: (← joinCuts cut stop cuts)

/-- The range in at most `parts` adjacent parts. -/
def split (range : KeyRange) (parts : Nat) : Result (List KeyRange) :=
  if parts ≤ 1 ∨ range.isEmpty ∨ range.stride parts = 0 then .ok [range]
  else joinCuts range.start range.stop (range.cuts parts)

end GraphStore.KeyRange
