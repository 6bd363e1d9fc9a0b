import GraphStore.Bytes

/-!
Contract: fixed-width numbers and texts as byte strings, written and read back.

Owns the lengths of the written forms and the proof that reading inverts writing:
`toNat_bigEndian` gives back a number up to the width, `toString?_ofString` every text. Byte
strings of one length are ordered as the numbers they are read as.
-/

namespace GraphStore.Bytes

/-! ### Big-endian numbers -/

@[simp] theorem length_bigEndian (width value : Nat) : (bigEndian width value).length = width := by
  induction width with
  | zero => rfl
  | succ width inductionHypothesis => rw [bigEndian, List.length_cons, inductionHypothesis]

@[simp] theorem length_ofUInt64 (value : UInt64) : (ofUInt64 value).length = 8 :=
  length_bigEndian 8 value.toNat

@[simp] theorem length_ofUInt32 (value : UInt32) : (ofUInt32 value).length = 4 :=
  length_bigEndian 4 value.toNat

/-- The digits read so far weigh as much as the bytes behind them say. -/
theorem foldl_digits (bytes : Bytes) (total : Nat) :
    bytes.foldl (fun total byte => total * 256 + byte.toNat) total =
      total * Nat.pow 256 bytes.length + toNat bytes := by
  induction bytes generalizing total with
  | nil => simp [toNat]
  | cons byte rest inductionHypothesis =>
      have tail : toNat (byte :: rest) = byte.toNat * Nat.pow 256 rest.length + toNat rest := by
        rw [toNat, List.foldl_cons, Nat.zero_mul, Nat.zero_add, inductionHypothesis]
      have weight : Nat.pow 256 (rest.length + 1) = Nat.pow 256 rest.length * 256 := Nat.pow_succ ..
      rw [List.foldl_cons, inductionHypothesis, tail, List.length_cons, weight, Nat.add_mul,
        Nat.mul_assoc, Nat.mul_comm 256, Nat.add_assoc]

theorem toNat_cons (byte : UInt8) (rest : Bytes) :
    toNat (byte :: rest) = byte.toNat * Nat.pow 256 rest.length + toNat rest := by
  rw [toNat, List.foldl_cons, Nat.zero_mul, Nat.zero_add, foldl_digits]

/-- Reading gives a number back up to the digits that were written. -/
theorem toNat_bigEndian (width value : Nat) :
    toNat (bigEndian width value) = value % Nat.pow 256 width := by
  induction width with
  | zero => exact (Nat.mod_one value).symm
  | succ width inductionHypothesis =>
      have digit : (UInt8.ofNat (value / Nat.pow 256 width)).toNat =
          value / Nat.pow 256 width % 256 := UInt8.toNat_ofNat'
      have weight : Nat.pow 256 (width + 1) = Nat.pow 256 width * 256 := Nat.pow_succ ..
      rw [bigEndian, toNat_cons, inductionHypothesis, length_bigEndian, digit, weight,
        Nat.mod_mul, Nat.mul_comm, Nat.add_comm]

/-- A number within the width is read back whole. -/
theorem toNat_bigEndian_of_lt {width value : Nat} (fits : value < Nat.pow 256 width) :
    toNat (bigEndian width value) = value := by
  rw [toNat_bigEndian, Nat.mod_eq_of_lt fits]

@[simp] theorem toNat_ofUInt64 (value : UInt64) : toNat (ofUInt64 value) = value.toNat :=
  toNat_bigEndian_of_lt value.toNat_lt

@[simp] theorem toNat_ofUInt32 (value : UInt32) : toNat (ofUInt32 value) = value.toNat :=
  toNat_bigEndian_of_lt value.toNat_lt

theorem ofUInt64_injective {left right : UInt64} (same : ofUInt64 left = ofUInt64 right) :
    left = right := by
  apply UInt64.toNat_inj.1
  rw [← toNat_ofUInt64 left, same, toNat_ofUInt64]

theorem ofUInt32_injective {left right : UInt32} (same : ofUInt32 left = ofUInt32 right) :
    left = right := by
  apply UInt32.toNat_inj.1
  rw [← toNat_ofUInt32 left, same, toNat_ofUInt32]

/-! ### Numbers and the order of byte strings -/

/-- A byte string stands for less than its length has room for. -/
theorem toNat_lt_weight (bytes : Bytes) : toNat bytes < Nat.pow 256 bytes.length := by
  induction bytes with
  | nil => exact Nat.one_pos
  | cons byte rest inductionHypothesis =>
      rw [toNat_cons, List.length_cons]
      have digit : byte.toNat < 256 := byte.toNat_lt
      calc byte.toNat * Nat.pow 256 rest.length + toNat rest
          < byte.toNat * Nat.pow 256 rest.length + Nat.pow 256 rest.length := by omega
        _ = (byte.toNat + 1) * Nat.pow 256 rest.length := by rw [Nat.succ_mul]
        _ ≤ 256 * Nat.pow 256 rest.length := Nat.mul_le_mul_right _ digit
        _ = Nat.pow 256 (rest.length + 1) := Nat.pow_succ'.symm

/-- Byte strings of one length are ordered as their numbers. -/
theorem toNat_lt_of_lt {left right : Bytes} (lengths : left.length = right.length)
    (less : left < right) : toNat left < toNat right := by
  induction left generalizing right with
  | nil =>
      cases right with
      | nil => exact absurd less (List.lt_irrefl _)
      | cons byte right => simp at lengths
  | cons first left inductionHypothesis =>
      cases right with
      | nil => simp at lengths
      | cons second right =>
          have tails : left.length = right.length := by simpa using lengths
          rw [toNat_cons, toNat_cons, tails]
          have small := toNat_lt_weight left
          rw [tails] at small
          cases List.cons_lt_cons_iff.1 less with
          | inl lower =>
              have digits : first.toNat + 1 ≤ second.toNat := UInt8.lt_iff_toNat_lt.1 lower
              have scaled := Nat.mul_le_mul_right (Nat.pow 256 right.length) digits
              rw [Nat.succ_mul] at scaled
              omega
          | inr same =>
              have others := inductionHypothesis tails same.2
              rw [same.1]
              omega

theorem lt_of_toNat_lt {left right : Bytes} (lengths : left.length = right.length)
    (less : toNat left < toNat right) : left < right := by
  by_cases reached : left < right
  · exact reached
  · exfalso
    rcases List.le_iff_lt_or_eq.1 (List.not_lt.1 reached) with greater | rfl
    · have contrary := toNat_lt_of_lt lengths.symm greater
      omega
    · omega

/-- Digits of one width are ordered as their numbers. -/
theorem bigEndian_lt {width low high : Nat} (less : low < high)
    (fits : high < Nat.pow 256 width) : bigEndian width low < bigEndian width high := by
  have lengths : (bigEndian width low).length = (bigEndian width high).length := by simp
  apply lt_of_toNat_lt lengths
  rwa [toNat_bigEndian_of_lt fits, toNat_bigEndian_of_lt (Nat.lt_trans less fits)]

/-- A byte string is determined by its length and its number. -/
theorem eq_of_toNat {left right : Bytes} (lengths : left.length = right.length)
    (same : toNat left = toNat right) : left = right := by
  apply List.le_antisymm
  · intro greater
    have lower := toNat_lt_of_lt lengths.symm greater
    omega
  · intro less
    have lower := toNat_lt_of_lt lengths less
    omega

theorem lt_of_ofUInt64_lt {left right : UInt64} (less : ofUInt64 left < ofUInt64 right) :
    left < right := by
  have lengths : (ofUInt64 left).length = (ofUInt64 right).length := by
    rw [length_ofUInt64, length_ofUInt64]
  have numbers := toNat_lt_of_lt lengths less
  rwa [toNat_ofUInt64, toNat_ofUInt64, ← UInt64.lt_iff_toNat_lt] at numbers

/-! ### Texts -/

/-- The bytes of a text are read as the text. -/
theorem toString?_ofString (text : String) : toString? (ofString text) = some text := by
  have whole : (⟨(ofString text).toArray⟩ : ByteArray) = text.toByteArray := by
    simp only [ofString, Array.toArray_toList]
    rfl
  have valid : text.toByteArray.IsValidUTF8 := text.isValidUTF8
  rw [toString?, whole, String.fromUTF8?, dif_pos valid]
  rfl

/-- Texts with the same bytes are the same. -/
theorem ofString_inj {left right : String} : ofString left = ofString right ↔ left = right := by
  refine ⟨fun same => ?_, congrArg ofString⟩
  have texts := congrArg toString? same
  rw [toString?_ofString, toString?_ofString] at texts
  exact Option.some.inj texts

end GraphStore.Bytes
