import GraphStore.Error

/-!
Contract: numbers of variable length, seven bits a byte, lowest first; every byte
but the last has its high bit set.

Owns writing, and reading of numbers below `2 ^ 64` within ten bytes. Signed numbers
are folded first, so that small absolute values stay short.
-/

namespace GraphStore.Encoding

/-- The base-128 digits of a number, lowest first. -/
def varint (value : Nat) : Bytes :=
  if value < 128 then [UInt8.ofNat value]
  else UInt8.ofNat (value % 128 + 128) :: varint (value / 128)
termination_by value
decreasing_by omega

def maxVarintBytes : Nat := 10

/-- Reads a number of at most `left` further digits, `index` digits having been read.
The bytes behind the last one looked at are answered in any case. -/
def readVarintFrom : (left index : Nat) → Bytes → Except Damage Nat × Bytes
  | 0, _, source => (.error .varintTooLong, source)
  | _ + 1, index, [] => (.error (.varintTruncated index), [])
  | left + 1, index, byte :: rest =>
    let digit := byte.toNat % 128
    if left = 0 ∧ 1 < digit then (.error .varintTooLarge, rest)
    else if byte.toNat < 128 then (.ok digit, rest)
    else
      match readVarintFrom left (index + 1) rest with
      | (.ok higher, behind) => (.ok (digit + 128 * higher), behind)
      | (.error damage, behind) => (.error damage, behind)

/-- The number at the front of `source`, and the bytes behind it. -/
def readVarint (source : Bytes) : Except Damage Nat × Bytes :=
  readVarintFrom maxVarintBytes 0 source

/-- Folds a signed number into an unsigned one: 0, -1, 1, -2, 2, … become 0, 1, 2, 3, 4, … -/
def foldSign (value : Int64) : Nat :=
  if 0 ≤ value.toInt then (2 * value.toInt).toNat else (-2 * value.toInt - 1).toNat

/-- The signed number that folds into the given one. -/
def unfoldSign (folded : Nat) : Int64 :=
  if folded % 2 = 0 then Int64.ofNat (folded / 2) else Int64.ofInt (-((folded : Int) / 2) - 1)

/-- A signed number in variable length. -/
def signedVarint (value : Int64) : Bytes := varint (foldSign value)

end GraphStore.Encoding
