/-!
Contract: byte strings, the one representation of keys, columns, values and
stored records, and the machine words that are written in them.

Owns:
- the bounds of machine words of any width, as naturals, so that arithmetic on words can be compared
  with arithmetic on numbers;
- the extreme byte strings of a given length;
- fixed-width big-endian numbers;
- the prefix successor, the exclusive upper bound of all strings sharing a prefix;
- hexadecimal text and the byte form of text.

The storage order is the lexicographic order of `List UInt8`.
-/

namespace GraphStore

/-! ### Machine words -/

namespace Word

/-- The number of values of a word. -/
def count (bits : Nat) : Nat := Nat.pow 2 bits

/-- How far a signed word reaches below zero. -/
def reach (bits : Nat) : Nat := Nat.pow 2 (bits - 1)

/-- Whether a signed word holds an integer. -/
def holds (bits : Nat) (value : Int) : Bool := -(reach bits : Int) ≤ value && value < reach bits

/-- The integer of a signed word that is next to the given one. -/
def clamp (bits : Nat) (value : Int) : Int :=
  max (-(reach bits : Int)) (min value (reach bits - 1))

end Word

/-! ### Byte strings -/

/-- An immutable byte string. -/
abbrev Bytes := List UInt8

namespace Bytes

-- Named here, so that all maps with byte strings as keys refer to the same proof.
instance : Std.LawfulOrderLT Bytes := inferInstance

/-- The smallest byte string of `length` bytes. -/
def zeros (length : Nat) : Bytes := List.replicate length 0

/-- The largest byte string of `length` bytes. -/
def ones (length : Nat) : Bytes := List.replicate length 255

/-- The `width` low base-256 digits of `value`, most significant first. -/
def bigEndian : (width : Nat) → (value : Nat) → Bytes
  | 0, _ => []
  | width + 1, value => UInt8.ofNat (value / Nat.pow 256 width) :: bigEndian width value

/-- The number whose base-256 digits are `bytes`, most significant first. -/
def toNat (bytes : Bytes) : Nat :=
  bytes.foldl (fun total byte => total * 256 + byte.toNat) 0

/-- Eight big-endian bytes. -/
def ofUInt64 (value : UInt64) : Bytes := bigEndian 8 value.toNat

/-- Four big-endian bytes. -/
def ofUInt32 (value : UInt32) : Bytes := bigEndian 4 value.toNat

def ofString (text : String) : Bytes := text.toUTF8.data.toList

/-- The text whose UTF-8 bytes these are, if there is one. -/
def toString? (bytes : Bytes) : Option String := String.fromUTF8? ⟨bytes.toArray⟩

/-- The least byte string above every string that starts with the given one.
The last byte below 255 is raised and everything behind it dropped; without
such a byte there is no bound. -/
def nextPrefix : Bytes → Option Bytes
  | [] => none
  | byte :: rest =>
    match nextPrefix rest with
    | some bound => some (byte :: bound)
    | none => if byte = 255 then none else some [byte + 1]

private def hexDigit (value : Nat) : Char := Nat.digitChar (value % 16)

/-- Two lower-case hexadecimal digits per byte. -/
def hex (bytes : Bytes) : String :=
  String.ofList (bytes.flatMap fun byte => [hexDigit (byte.toNat / 16), hexDigit byte.toNat])

/-- The quoted form of a byte string in messages. -/
def show0x (bytes : Bytes) : String := "0x" ++ hex bytes

end Bytes

end GraphStore
