import GraphStore.Bytes
import GraphStore.Error

/-!
Contract: keys whose byte order is the order of what they encode.

Owns the keys of fixed width of unsigned and signed integers and of doubles. A signed number is
shifted by half the range of its width. A double keeps the order of its bits when positive and
reverses it when negative; NaN has no place in the order.

Owns as well byte strings of any length that mark their own end. A zero byte is written as `00 FF`
and the string ends with `00 01`, so a string sorts before its extensions. Reading such a string
accepts exactly what writing one produces.
-/

namespace GraphStore.Encoding

/-! ### Numbers -/

/-- The key of a 64-bit signed integer. -/
def int64Key (value : Int64) : Bytes := Bytes.bigEndian 8 (value.toInt + Word.reach 64).toNat

/-- The key of a 32-bit signed integer. -/
def int32Key (value : Int32) : Bytes := Bytes.bigEndian 4 (value.toInt + Word.reach 32).toNat

/-- The 64-bit signed integer with the given key. -/
def int64OfKey (key : Bytes) : Int64 := Int64.ofInt ((key.toNat : Int) - Word.reach 64)

/-- The 32-bit signed integer with the given key. -/
def int32OfKey (key : Bytes) : Int32 := Int32.ofInt ((key.toNat : Int) - Word.reach 32)

/-- The rank of a double among the bit patterns: negative ones descend below the
middle, the others ascend from it. -/
def doubleRank (value : Double) : Nat :=
  if value.negative then Word.count 64 - 1 - value.bits.toNat
  else Word.reach 64 + value.bits.toNat

def doubleOfRank (rank : Nat) : Double :=
  ⟨UInt64.ofNat (if Word.reach 64 ≤ rank then rank - Word.reach 64 else Word.count 64 - 1 - rank)⟩

/-- The key of a double, NaN or not. -/
def doubleBitsKey (value : Double) : Bytes := Bytes.bigEndian 8 (doubleRank value)

def doubleKey (value : Double) : Result Bytes :=
  if value.isNaN then .error (.invalidValue .nanKey) else .ok (doubleBitsKey value)

def doubleOfKey (key : Bytes) : Double := doubleOfRank key.toNat

/-- The unsigned number in the eight bytes from `offset` on. -/
def uint64At (bytes : Bytes) (offset : Nat) : Result UInt64 :=
  if Word.count 64 ≤ offset + 8 then .error (.corruption .numberOffsetOverflow)
  else if bytes.length < offset + 8 then
    .error (.corruption (.shortNumber bytes.length offset))
  else .ok (UInt64.ofNat (Bytes.toNat ((bytes.drop offset).take 8)))

/-- The unsigned number in the first eight bytes; further bytes are ignored. -/
def leadingUInt64 (bytes : Bytes) : Result UInt64 := uint64At bytes 0

/-! ### Byte strings of any length -/

/-- The body of an escaped string: zero bytes are followed by `FF`. -/
def escapeBody : Bytes → Bytes
  | [] => []
  | byte :: rest =>
    if byte = 0 then 0 :: 255 :: escapeBody rest else byte :: escapeBody rest

/-- An escaped string with its end mark. -/
def escaped (bytes : Bytes) : Bytes := escapeBody bytes ++ [0, 1]

/-- Reads an escaped string from the front; `offset` is the place of the front in the
whole source. The answer is the string and the bytes behind its end mark. -/
def readEscapedFrom : (offset : Nat) → Bytes → Except Damage (Bytes × Bytes)
  | _, [] => .error .unterminated
  | offset, byte :: rest =>
    if byte = 0 then
      match rest with
      | [] => .error .unterminated
      | mark :: behind =>
        if mark = 255 then
          (readEscapedFrom (offset + 2) behind).map fun found => (0 :: found.1, found.2)
        else if mark = 1 then .ok ([], behind)
        else .error (.badEscape mark offset)
    else (readEscapedFrom (offset + 1) rest).map fun found => (byte :: found.1, found.2)

/-- The escaped string at the front of `source`, and how many bytes it takes up. -/
def splitEscaped (source : Bytes) : Result (Bytes × Nat) :=
  match readEscapedFrom 0 source with
  | .ok (value, behind) => .ok (value, source.length - behind.length)
  | .error damage => .error (.corruption damage)

end GraphStore.Encoding
