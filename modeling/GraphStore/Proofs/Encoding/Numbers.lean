import GraphStore.Double
import GraphStore.Proofs.Encoding.Ranking
import GraphStore.Proofs.Encoding.Reading

/-!
Contract: numbers of fixed width, read back and ranked.

Owns, for the signed integers of both widths and for doubles, that reading a key gives the number
back (`takes_int64`, `takes_double`) and that keys rank as the numbers (`ranks_int64Key`). Doubles
rank by their magnitudes, those of negative ones counted downwards (`Double.signedMagnitude`), where
zero is written without its sign.

Owns as well what the reading of an unsigned number at the front of a string accepts. It accepts the
strings that begin with the bytes of a number, whatever stands behind them (`leadingUInt64_eq_ok`),
and refuses those that are too short. So the number of a string with up to eight bytes is that of
the whole string, and the number of a longer one never is (`ReadsLeading`).
-/

namespace GraphStore

/-! ### Doubles as signed magnitudes -/

namespace Double

theorem signWeight_eq : signWeight = 9223372036854775808 := rfl

theorem bits_eq (number : Double) : number.bits.toNat =
    if number.negative then signWeight + number.magnitude else number.magnitude := by
  have bound : number.bits.toNat < 18446744073709551616 := number.bits.toNat_lt
  rw [magnitude, negative, signWeight_eq]
  by_cases isNegative : 9223372036854775808 ≤ number.bits.toNat
  · rw [if_pos (decide_eq_true isNegative)]
    omega
  · rw [if_neg (by rw [decide_eq_true_eq]; exact isNegative)]
    omega

theorem ext_magnitude {left right : Double} (signs : left.negative = right.negative)
    (magnitudes : left.magnitude = right.magnitude) : left = right := by
  have bits : left.bits = right.bits := by
    rw [← UInt64.toNat_inj, bits_eq, bits_eq, signs, magnitudes]
  cases left
  cases right
  exact congrArg Double.mk bits

theorem magnitude_lt (number : Double) : number.magnitude < signWeight :=
  Nat.mod_lt _ (by decide)

theorem eq_negativeZero {number : Double} (isNegative : number.negative = true)
    (none : number.magnitude = 0) : number = negativeZero :=
  ext_magnitude (isNegative.trans (by decide)) (none.trans (by decide))

theorem dropZeroSign_ne (number : Double) : number.dropZeroSign ≠ negativeZero := by
  rw [dropZeroSign]
  split
  · decide
  · assumption

theorem signedMagnitude_dropZeroSign (number : Double) :
    number.dropZeroSign.signedMagnitude = number.signedMagnitude := by
  rw [dropZeroSign]
  split
  · rename_i isZero
    rw [isZero]
    decide
  · rfl

/-- Doubles without a signed zero are told apart by their signed magnitudes. -/
theorem eq_of_signedMagnitude {left right : Double} (leftKept : left ≠ negativeZero)
    (rightKept : right ≠ negativeZero) (same : left.signedMagnitude = right.signedMagnitude) :
    left = right := by
  have leftSize : left.negative = true → left.magnitude ≠ 0 := fun sign none =>
    leftKept (eq_negativeZero sign none)
  have rightSize : right.negative = true → right.magnitude ≠ 0 := fun sign none =>
    rightKept (eq_negativeZero sign none)
  rw [signedMagnitude, signedMagnitude] at same
  cases leftSign : left.negative <;> cases rightSign : right.negative <;>
    simp only [leftSign, rightSign, Bool.false_eq_true, ↓reduceIte] at same leftSize rightSize
  · exact ext_magnitude (leftSign.trans rightSign.symm) (by omega)
  · have := rightSize trivial
    omega
  · have := leftSize trivial
    omega
  · exact ext_magnitude (leftSign.trans rightSign.symm) (by omega)

end Double

namespace Encoding

/-! ### Signed integers -/

/-- Shifted numbers compare as the numbers themselves. -/
theorem compare_shifted {left right shift : Int} (leftLow : -shift ≤ left)
    (rightLow : -shift ≤ right) :
    compare (left + shift).toNat (right + shift).toNat = compare left right := by
  rcases ranked : compare left right with _ | _ | _
  · rw [Nat.compare_eq_lt]
    have := Int.compare_eq_lt.1 ranked
    omega
  · rw [Nat.compare_eq_eq, Int.compare_eq_eq.1 ranked]
  · rw [Nat.compare_eq_gt]
    have := Int.compare_eq_gt.1 ranked
    omega

/-- Shifted up, the number is not negative and lies within the width. -/
def Shifts (width : Nat) (shift value : Int) : Prop :=
  -shift ≤ value ∧ (value + shift).toNat < Nat.pow 256 width

theorem ranks_shifted {width : Nat} {shift left right : Int} (leftShifts : Shifts width shift left)
    (rightShifts : Shifts width shift right) :
    (Bytes.bigEndian width (left + shift).toNat).Ranks
      (Bytes.bigEndian width (right + shift).toNat) (compare left right) := by
  rw [← compare_shifted leftShifts.1 rightShifts.1]
  exact ranks_bigEndian width leftShifts.2 rightShifts.2

theorem toNat_shifted {width : Nat} {shift value : Int} (shifts : Shifts width shift value) :
    (Bytes.toNat (Bytes.bigEndian width (value + shift).toNat) : Int) - shift = value := by
  have low := shifts.1
  rw [Bytes.toNat_bigEndian_of_lt shifts.2]
  omega

theorem reach_eq : Word.reach 64 = 9223372036854775808 ∧ Word.reach 32 = 2147483648 := ⟨rfl, rfl⟩

theorem shifts_int64 (value : Int64) : Shifts 8 (Word.reach 64) value.toInt := by
  have low := value.le_toInt
  have high := value.toInt_lt
  have reach := reach_eq.1
  have weight : Nat.pow 256 8 = 18446744073709551616 := rfl
  constructor <;> omega

theorem shifts_int32 (value : Int32) : Shifts 4 (Word.reach 32) value.toInt := by
  have low := value.le_toInt
  have high := value.toInt_lt
  have reach := reach_eq.2
  have weight : Nat.pow 256 4 = 4294967296 := rfl
  constructor <;> omega

/-- Keys of signed numbers rank as the numbers. -/
theorem ranks_int64Key (left right : Int64) :
    (int64Key left).Ranks (int64Key right) (compare left.toInt right.toInt) :=
  ranks_shifted (shifts_int64 left) (shifts_int64 right)

theorem ranks_int32Key (left right : Int32) :
    (int32Key left).Ranks (int32Key right) (compare left.toInt right.toInt) :=
  ranks_shifted (shifts_int32 left) (shifts_int32 right)

theorem int64OfKey_int64Key (value : Int64) : int64OfKey (int64Key value) = value := by
  rw [int64OfKey, int64Key, toNat_shifted (shifts_int64 value), Int64.ofInt_toInt]

theorem int32OfKey_int32Key (value : Int32) : int32OfKey (int32Key value) = value := by
  rw [int32OfKey, int32Key, toNat_shifted (shifts_int32 value), Int32.ofInt_toInt]

/-! ### Doubles -/

theorem count_eq : Word.count 64 = 18446744073709551616 := rfl

theorem doubleRank_lt (value : Double) : doubleRank value < Nat.pow 256 8 := by
  have bits := value.bits_eq
  have magnitude := value.magnitude_lt
  have weight := Double.signWeight_eq
  have reach := reach_eq.1
  have count := count_eq
  have range : Nat.pow 256 8 = 18446744073709551616 := rfl
  rw [doubleRank]
  cases sign : value.negative <;>
    simp only [sign, Bool.false_eq_true, ↓reduceIte] at bits ⊢ <;> omega

theorem doubleOfRank_doubleRank (value : Double) : doubleOfRank (doubleRank value) = value := by
  have bits := value.bits_eq
  have magnitude := value.magnitude_lt
  have weight := Double.signWeight_eq
  have reach := reach_eq.1
  have count := count_eq
  have back : (if Word.reach 64 ≤ doubleRank value then doubleRank value - Word.reach 64
      else Word.count 64 - 1 - doubleRank value) = value.bits.toNat := by
    rw [doubleRank]
    cases sign : value.negative <;>
      simp only [sign, Bool.false_eq_true, ↓reduceIte] at bits ⊢
    · rw [if_pos (by omega)]
      omega
    · rw [if_neg (by omega)]
      omega
  rw [doubleOfRank, back, UInt64.ofNat_toNat]

theorem doubleOfKey_doubleBitsKey (value : Double) : doubleOfKey (doubleBitsKey value) = value := by
  rw [doubleOfKey, doubleBitsKey, Bytes.toNat_bigEndian_of_lt (doubleRank_lt value),
    doubleOfRank_doubleRank]

/-- Where no zero has a sign, negative doubles lie below the middle and the others from there on. -/
theorem doubleRank_eq {value : Double} (kept : value ≠ Double.negativeZero) :
    (doubleRank value : Int) = if value.signedMagnitude < 0
      then value.signedMagnitude + (Word.reach 64 - 1)
      else value.signedMagnitude + Word.reach 64 := by
  have bits := value.bits_eq
  have magnitude := value.magnitude_lt
  have weight := Double.signWeight_eq
  have reach := reach_eq.1
  have count := count_eq
  have size : value.negative = true → value.magnitude ≠ 0 := fun sign none =>
    kept (Double.eq_negativeZero sign none)
  rw [doubleRank, Double.signedMagnitude]
  cases sign : value.negative <;>
    simp only [sign, Bool.false_eq_true, ↓reduceIte] at bits size ⊢
  · rw [if_neg (by omega)]
    omega
  · have filled := size trivial
    rw [if_pos (by omega)]
    omega

theorem compare_doubleRank {left right : Double} (leftKept : left ≠ Double.negativeZero)
    (rightKept : right ≠ Double.negativeZero) : compare (doubleRank left) (doubleRank right) =
      compare left.signedMagnitude right.signedMagnitude := by
  have leftRank := doubleRank_eq leftKept
  have rightRank := doubleRank_eq rightKept
  rcases ranked : compare left.signedMagnitude right.signedMagnitude with _ | _ | _
  · have less := Int.compare_eq_lt.1 ranked
    rw [Nat.compare_eq_lt]
    split at leftRank <;> split at rightRank <;> omega
  · have same := Int.compare_eq_eq.1 ranked
    rw [Nat.compare_eq_eq]
    rw [← same] at rightRank
    omega
  · have greater := Int.compare_eq_gt.1 ranked
    rw [Nat.compare_eq_gt]
    split at leftRank <;> split at rightRank <;> omega

/-- Keys of doubles rank by the signed magnitudes, zero without its sign. -/
theorem ranks_doubleBitsKey {left right : Double} (leftKept : left ≠ Double.negativeZero)
    (rightKept : right ≠ Double.negativeZero) : (doubleBitsKey left).Ranks (doubleBitsKey right)
      (compare left.signedMagnitude right.signedMagnitude) := by
  rw [← compare_doubleRank leftKept rightKept]
  exact ranks_bigEndian 8 (doubleRank_lt left) (doubleRank_lt right)

/-! ### Reading -/

/-- A step that takes as many bytes as there are and makes something of them. -/
theorem takes_width {α : Type} {width : Nat} (content : Bytes) (length : content.length = width)
    (change : Bytes → α) :
    Read.Takes (Read.take width >>= fun bytes => pure (change bytes)) content (change content) := by
  subst length
  exact (takes_take content).map change

/-- The key of a signed number is read as the number. -/
theorem takes_int64 (value : Int64) : Read.int64.Takes (int64Key value) value := by
  have taken := takes_width (int64Key value) (Bytes.length_bigEndian 8 _) int64OfKey
  rwa [int64OfKey_int64Key] at taken

theorem takes_int32 (value : Int32) : Read.int32.Takes (int32Key value) value := by
  have taken := takes_width (int32Key value) (Bytes.length_bigEndian 4 _) int32OfKey
  rwa [int32OfKey_int32Key] at taken

/-- The key of a double is read as the double. -/
theorem takes_double (value : Double) : Read.double.Takes (doubleBitsKey value) value := by
  have taken := takes_width (doubleBitsKey value) (Bytes.length_bigEndian 8 _) doubleOfKey
  rwa [doubleOfKey_doubleBitsKey] at taken

theorem takes_uint8 (value : UInt8) : Read.uint8.Takes [value] value := by
  have taken := (takes_width [value] (rfl : [value].length = 1) Bytes.toNat).map UInt8.ofNat
  have number : Bytes.toNat [value] = value.toNat := by simp [Bytes.toNat]
  rwa [number, UInt8.ofNat_toNat] at taken

theorem takes_uint64 (value : UInt64) : Read.uint64.Takes (Bytes.ofUInt64 value) value := by
  have taken :=
    (takes_width (Bytes.ofUInt64 value) (Bytes.length_ofUInt64 value) Bytes.toNat).map UInt64.ofNat
  rwa [Bytes.toNat_ofUInt64, UInt64.ofNat_toNat] at taken

theorem leadingUInt64_append (value : UInt64) (behind : Bytes) :
    leadingUInt64 (Bytes.ofUInt64 value ++ behind) = .ok value := by
  have length := Bytes.length_ofUInt64 value
  rw [leadingUInt64, uint64At, if_neg (by decide),
    if_neg (by rw [List.length_append]; omega), List.drop_zero, List.take_left' length,
    Bytes.toNat_ofUInt64, UInt64.ofNat_toNat]

theorem leadingUInt64_ofUInt64 (value : UInt64) :
    leadingUInt64 (Bytes.ofUInt64 value) = .ok value := by
  have whole := leadingUInt64_append value []
  rwa [List.append_nil] at whole

/-- An escaped string is read wherever it stands, since its length is not checked beforehand. -/
theorem read_escaped (content : Bytes) (offset : Nat) (rest : Bytes) :
    Read.escaped ⟨offset, escaped content ++ rest⟩ =
      (.ok content, ⟨offset + (escaped content).length, rest⟩) := by
  rw [Read.escaped, readEscapedFrom_escaped]
  simp [Cursor.advanceTo]

/-- An escaped string is read as the string. -/
theorem takes_escaped (content : Bytes) : Read.escaped.Takes (escaped content) content :=
  fun offset rest _ => read_escaped content offset rest

/-! ### Numbers at the front -/

section Leading

variable {bytes : Bytes}

theorem leadingUInt64_of_long (long : 8 ≤ bytes.length) :
    leadingUInt64 bytes = .ok (UInt64.ofNat (Bytes.toNat (bytes.take 8))) := by
  unfold leadingUInt64 uint64At
  rw [if_neg (by decide), if_neg (by omega), List.drop_zero]

theorem leadingUInt64_of_short (short : bytes.length < 8) :
    leadingUInt64 bytes = .error (.corruption (.shortNumber bytes.length 0)) := by
  unfold leadingUInt64 uint64At
  rw [if_neg (by decide), if_pos (by omega)]

/-- A key begins with the bytes of the number that is read from it. -/
theorem ofNat_toNat_take {number : UInt64} (long : 8 ≤ bytes.length) :
    UInt64.ofNat (Bytes.toNat (bytes.take 8)) = number ↔ bytes.take 8 = Bytes.ofUInt64 number := by
  have eight : (bytes.take 8).length = 8 := by
    rw [List.length_take]
    omega
  have small : Bytes.toNat (bytes.take 8) < Word.count 64 := by
    have weight := Bytes.toNat_lt_weight (bytes.take 8)
    rw [eight] at weight
    exact weight
  constructor
  · intro read
    apply Bytes.eq_of_toNat
    · rw [eight, Bytes.length_ofUInt64]
    · rw [Bytes.toNat_ofUInt64, ← read, UInt64.toNat_ofNat_of_lt' small]
  · intro front
    rw [front, Bytes.toNat_ofUInt64, UInt64.ofNat_toNat]

/-- What is read is the number at the front; what stands behind it does not matter. -/
theorem leadingUInt64_eq_ok {number : UInt64} :
    leadingUInt64 bytes = .ok number ↔ Bytes.ofUInt64 number <+: bytes := by
  constructor
  · intro read
    rcases Nat.lt_or_ge bytes.length 8 with short | long
    · rw [leadingUInt64_of_short short] at read
      exact nomatch read
    · rw [leadingUInt64_of_long long] at read
      rw [← (ofNat_toNat_take long).1 (Except.ok.inj read)]
      exact List.take_prefix 8 bytes
  · rintro ⟨behind, rfl⟩
    exact leadingUInt64_append number behind

theorem exists_leading (long : 8 ≤ bytes.length) : ∃ number, Bytes.ofUInt64 number <+: bytes :=
  ⟨_, leadingUInt64_eq_ok.1 (leadingUInt64_of_long long)⟩

/-- What a reader of one number makes of a byte string. -/
structure ReadsLeading (bytes : Bytes) (outcome : Result UInt64) : Prop where
  found : ∀ number, outcome = .ok number ↔ Bytes.ofUInt64 number <+: bytes
  refused : bytes.length < 8 ↔ outcome = .error (.corruption (.shortNumber bytes.length 0))
  /-- The reader is strict, so that nothing but the bytes of a number is read as one. -/
  strict : (∀ number, outcome = .ok number ↔ bytes = Bytes.ofUInt64 number) ↔ bytes.length ≤ 8

/-- The reader at the front reads as `ReadsLeading` says of every byte string. -/
theorem readsLeading (bytes : Bytes) : ReadsLeading bytes (leadingUInt64 bytes) where
  found _ := leadingUInt64_eq_ok
  refused := by
    constructor
    · exact leadingUInt64_of_short
    · intro refused
      apply Nat.lt_of_not_le
      intro long
      rw [leadingUInt64_of_long long] at refused
      exact nomatch refused
  strict := by
    constructor
    · intro strict
      apply Nat.le_of_not_lt
      intro longer
      obtain ⟨number, front⟩ := exists_leading (Nat.le_of_lt longer)
      have whole := (strict number).1 (leadingUInt64_eq_ok.2 front)
      rw [whole, Bytes.length_ofUInt64] at longer
      exact Nat.lt_irrefl 8 longer
    · intro short number
      rw [leadingUInt64_eq_ok]
      constructor
      · intro front
        rw [← Bytes.length_ofUInt64 number] at short
        exact (front.eq_of_length_le short).symm
      · rintro rfl
        exact List.prefix_refl _

end Leading

end Encoding

end GraphStore
