import GraphStore.Bytes
import GraphStore.Encoding.Ordered
import GraphStore.Encoding.Varint

/-!
Contract: field-by-field reading of a byte string.

Owns the cursor and the reading steps. A successful step moves the cursor exactly
behind the field; a failed step answers the damage, and the cursor it leaves still
lies within the source.
-/

namespace GraphStore.Encoding

/-- A place in a source: how many bytes lie before it and which ones behind. -/
structure Cursor where
  offset : Nat
  rest : Bytes
deriving DecidableEq, Repr

namespace Cursor

def start (source : Bytes) : Cursor := ⟨0, source⟩

/-- A place inside or beyond a source. -/
def startAt (source : Bytes) (offset : Nat) : Cursor := ⟨offset, source.drop offset⟩

def remaining (cursor : Cursor) : Nat := cursor.rest.length

def exhausted (cursor : Cursor) : Bool := cursor.rest.isEmpty

def text (cursor : Cursor) : String :=
  "ReadCursor \x7b off: " ++ toString cursor.offset ++ ", remaining: "
    ++ toString cursor.remaining ++ " \x7d"

/-- The cursor whose rest is `behind`, a tail of the present rest. -/
def advanceTo (cursor : Cursor) (behind : Bytes) : Cursor :=
  ⟨cursor.offset + (cursor.rest.length - behind.length), behind⟩

end Cursor

/-- A reading step: an answer or an error, and the cursor afterwards. -/
abbrev Read (α : Type) := ExceptT StoreError (StateM Cursor) α

/-- The greatest offset plus one. -/
def offsetLimit : Nat := Word.count 64

def Read.take (count : Nat) : Read Bytes := fun cursor =>
  if offsetLimit ≤ cursor.offset + count then (.error (.corruption .offsetOverflow), cursor)
  else if cursor.remaining < count then
    (.error (.corruption (.pastEnd count cursor.remaining)), cursor)
  else (.ok (cursor.rest.take count), ⟨cursor.offset + count, cursor.rest.drop count⟩)

/-- The number in the next `width` bytes. -/
def Read.bigEndian (width : Nat) : Read Nat := do
  let bytes ← Read.take width
  return bytes.toNat

def Read.uint8 : Read UInt8 := do return UInt8.ofNat (← Read.bigEndian 1)

def Read.uint32 : Read UInt32 := do return UInt32.ofNat (← Read.bigEndian 4)

def Read.uint64 : Read UInt64 := do return UInt64.ofNat (← Read.bigEndian 8)

def Read.int64 : Read Int64 := do return int64OfKey (← Read.take 8)

def Read.int32 : Read Int32 := do return int32OfKey (← Read.take 4)

def Read.double : Read Double := do return doubleOfKey (← Read.take 8)

/-- The next number of variable length. A failed read stays behind the last byte
it looked at. -/
def Read.varint : Read UInt64 := fun cursor =>
  match readVarint cursor.rest with
  | (.ok value, behind) => (.ok (UInt64.ofNat value), cursor.advanceTo behind)
  | (.error damage, behind) => (.error (.corruption damage), cursor.advanceTo behind)

/-- The next signed number of variable length. -/
def Read.signedVarint : Read Int64 := do return unfoldSign (← Read.varint).toNat

/-- The next escaped string; offsets in messages count from its front. -/
def Read.escaped : Read Bytes := fun cursor =>
  match readEscapedFrom 0 cursor.rest with
  | .ok (value, behind) => (.ok value, cursor.advanceTo behind)
  | .error damage => (.error (.corruption damage), cursor)

def Read.damaged {α : Type} (damage : Damage) : Read α := throw (.corruption damage)

/-- Fails unless the whole source has been read. -/
def Read.finish (damage : Nat → Damage) : Read Unit := fun cursor =>
  if cursor.exhausted then (.ok (), cursor)
  else (.error (.corruption (damage cursor.remaining)), cursor)

def Read.answer {α : Type} (step : Read α) (source : Bytes) : Result α :=
  (step (Cursor.start source)).1

end GraphStore.Encoding
