import GraphStore.Bytes

/-!
Contract: the checksum of log records.

Owns the cyclic redundancy check CRC-32 (reflected polynomial `EDB88320`, initial value and final
mask all ones) and its use on a record: the sequence number is covered in front of the payload, so a
record at the wrong place fails.

Owns as well that every step of the check loses nothing (`feed_injective`): registers that differ go
on to differ however many bytes follow, so two messages that differ in one byte, at whatever place,
have different checksums (`crc32_ne_of_changed`).
-/

namespace GraphStore.Checksum

def polynomial : UInt32 := 0xEDB88320

/-- One bit of division. -/
def shiftBit (register : UInt32) : UInt32 :=
  if register % 2 = 1 then (register >>> 1) ^^^ polynomial else register >>> 1

/-- Eight bits of division. -/
def shiftByte (register : UInt32) : UInt32 :=
  shiftBit (shiftBit (shiftBit (shiftBit (shiftBit (shiftBit (shiftBit (shiftBit register)))))))

def feed (register : UInt32) (byte : UInt8) : UInt32 :=
  shiftByte (register ^^^ byte.toUInt32)

def crc32 (bytes : Bytes) : UInt32 := bytes.foldl feed 0xFFFFFFFF ^^^ 0xFFFFFFFF

def ofRecord (sequence : UInt64) (payload : Bytes) : UInt32 :=
  crc32 (Bytes.ofUInt64 sequence ++ payload)

/-! ### One bit -/

theorem toNat_half (register : UInt32) : (register >>> 1).toNat = register.toNat / 2 := by
  rw [UInt32.toNat_shiftRight]
  exact Nat.shiftRight_eq_div_pow register.toNat 1

/-- The generator has its highest bit set and a halved register has not, so the highest bit behind
a division step tells whether the generator was subtracted. -/
theorem highBit_shiftBit (register : UInt32) :
    (shiftBit register).toNat.testBit 31 = decide (register % 2 = 1) := by
  have low : (register >>> 1).toNat.testBit 31 = false := by
    apply Nat.testBit_lt_two_pow
    rw [toNat_half]
    have bound := register.toNat_lt
    omega
  unfold shiftBit
  split
  · rename_i odd
    rw [UInt32.toNat_xor, Nat.testBit_xor, low, decide_eq_true odd]
    decide
  · rename_i even
    rw [low, decide_eq_false even]

theorem eq_of_half {left right : UInt32} (halves : left >>> 1 = right >>> 1)
    (parities : left % 2 = 1 ↔ right % 2 = 1) : left = right := by
  apply UInt32.toNat_inj.1
  have sameHalf := congrArg UInt32.toNat halves
  rw [toNat_half, toNat_half] at sameHalf
  rw [← UInt32.toNat_inj, ← UInt32.toNat_inj, UInt32.toNat_mod, UInt32.toNat_mod] at parities
  change left.toNat % 2 = 1 ↔ right.toNat % 2 = 1 at parities
  omega

theorem shiftBit_injective {left right : UInt32} (same : shiftBit left = shiftBit right) :
    left = right := by
  have parities : left % 2 = 1 ↔ right % 2 = 1 := by
    have highBits := congrArg (fun register => register.toNat.testBit 31) same
    rw [highBit_shiftBit, highBit_shiftBit] at highBits
    exact decide_eq_decide.1 highBits
  refine eq_of_half ?_ parities
  unfold shiftBit at same
  by_cases odd : left % 2 = 1
  · rw [if_pos odd, if_pos (parities.1 odd)] at same
    exact (UInt32.xor_left_inj polynomial).1 same
  · rw [if_neg odd, if_neg (mt parities.2 odd)] at same
    exact same

/-! ### Bytes -/

theorem shiftByte_injective {left right : UInt32} (same : shiftByte left = shiftByte right) :
    left = right := by
  unfold shiftByte at same
  iterate 8 replace same := shiftBit_injective same
  exact same

/-- Feeding a byte loses nothing of the register. -/
theorem feed_injective {left right : UInt32} {byte : UInt8}
    (same : feed left byte = feed right byte) : left = right :=
  (UInt32.xor_left_inj byte.toUInt32).1 (shiftByte_injective same)

theorem feed_byte_injective {register : UInt32} {left right : UInt8}
    (same : feed register left = feed register right) : left = right :=
  UInt8.toUInt32_inj.1 ((UInt32.xor_right_inj register).1 (shiftByte_injective same))

/-- Registers that differ still differ behind any further bytes. -/
theorem foldl_feed_injective {left right : UInt32} (bytes : Bytes)
    (same : bytes.foldl feed left = bytes.foldl feed right) : left = right := by
  induction bytes generalizing left right with
  | nil => exact same
  | cons byte bytes inductionHypothesis => exact feed_injective (inductionHypothesis same)

/-! ### Messages -/

/-- Messages that differ in one byte have different checksums. -/
theorem crc32_ne_of_changed {left right : UInt8} (changed : left ≠ right) (front back : Bytes) :
    crc32 (front ++ left :: back) ≠ crc32 (front ++ right :: back) := by
  intro same
  have registers := (UInt32.xor_left_inj 0xFFFFFFFF).1 same
  rw [List.foldl_append, List.foldl_append, List.foldl_cons, List.foldl_cons] at registers
  exact changed (feed_byte_injective (foldl_feed_injective back registers))

end GraphStore.Checksum
