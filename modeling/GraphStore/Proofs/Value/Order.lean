import GraphStore.Proofs.Value.Doubles
import GraphStore.Value.Codec

/-!
Contract: stored values in the order of the values.

Owns the order of two values of one type (`Value.order`) and what the stored form of a verified
value keeps: reading gives the value back, with the sign of a zero dropped (`takes_read`), and in
front of any other bytes stored forms rank as the values (`ranks_fieldBytes`).
-/

namespace GraphStore

open Encoding

namespace Value

/-- The value with the sign of a zero dropped. -/
def dropZeroSign : Value → Value
  | double number => double number.dropZeroSign
  | value => value

/-- How two values of one type compare: flags with `false` first, integers and doubles as the
numbers they stand for, texts and byte strings byte by byte with a proper prefix first. Types come
in the order of their tags. -/
def order : Value → Value → Ordering
  | bool left, bool right => compare left right
  | int left, int right => compare left.toInt right.toInt
  | long left, long right => compare left.toInt right.toInt
  | double left, double right => cmp left.value right.value
  | text left, text right => Slice.compareBytes (Bytes.ofString left) (Bytes.ofString right)
  | bytes left, bytes right => Slice.compareBytes left right
  | left, right => compare left.dataType.tag.toNat right.dataType.tag.toNat

/-! ### Stored forms -/

/-- A verified double is a number. -/
theorem isNaN_of_verified {number : Double} (verified : (double number).verify = .ok ()) :
    number.isNaN = false := by
  rw [verify] at verified
  split at verified
  · exact nomatch verified
  · rename_i isNumber
    exact Bool.eq_false_iff.2 isNumber

/-- The field of a double is the key of its bits, zero without its sign. -/
theorem fieldBytes_double {number : Double} (isNumber : number.isNaN = false) :
    (double number).fieldBytes = doubleBitsKey number.dropZeroSign := by
  rw [fieldBytes, isNumber, if_neg Bool.false_ne_true]

theorem ranks_flag (left right : Bool) :
    Bytes.Ranks [if left then 1 else 0] [if right then 1 else 0] (compare left right) := by
  cases left <;> cases right
  · rfl
  · exact Bytes.Precedes.of_head (by decide)
  · exact Bytes.Precedes.of_head (by decide)
  · rfl

/-- Stored forms of one type rank as the values. -/
theorem ranks_fieldBytes {left right : Value} (leftVerified : left.verify = .ok ())
    (rightVerified : right.verify = .ok ()) (types : left.dataType = right.dataType) :
    left.fieldBytes.Ranks right.fieldBytes (left.order right) := by
  match left, right, leftVerified, rightVerified, types with
  | .bool left, .bool right, _, _, _ => exact ranks_flag left right
  | .int left, .int right, _, _, _ => exact ranks_int32Key left right
  | .long left, .long right, _, _, _ => exact ranks_int64Key left right
  | .double left, .double right, leftVerified, rightVerified, _ =>
      have leftNumber := isNaN_of_verified leftVerified
      have rightNumber := isNaN_of_verified rightVerified
      have ranks := ranks_doubleBitsKey left.dropZeroSign_ne right.dropZeroSign_ne
      rw [Double.signedMagnitude_dropZeroSign, Double.signedMagnitude_dropZeroSign] at ranks
      rw [fieldBytes_double leftNumber, fieldBytes_double rightNumber, order,
        Double.cmp_value leftNumber rightNumber]
      exact ranks
  | .text left, .text right, _, _, _ =>
      exact ranks_escaped (Bytes.ofString left) (Bytes.ofString right)
  | .bytes left, .bytes right, _, _, _ => exact ranks_escaped left right

/-! ### Equal values -/

/-- Verified values of one type compare as equal where they differ in signs of zeros only. -/
theorem order_eq_iff {left right : Value} (leftVerified : left.verify = .ok ())
    (rightVerified : right.verify = .ok ()) (types : left.dataType = right.dataType) :
    left.order right = .eq ↔ left.dropZeroSign = right.dropZeroSign := by
  match left, right, leftVerified, rightVerified, types with
  | .bool left, .bool right, _, _, _ =>
      show compare left right = .eq ↔ bool left = bool right
      rw [compare_eq_iff_eq, bool.injEq]
  | .int left, .int right, _, _, _ =>
      show compare left.toInt right.toInt = .eq ↔ int left = int right
      rw [compare_eq_iff_eq, Int32.toInt_inj, int.injEq]
  | .long left, .long right, _, _, _ =>
      show compare left.toInt right.toInt = .eq ↔ long left = long right
      rw [compare_eq_iff_eq, Int64.toInt_inj, long.injEq]
  | .double left, .double right, leftVerified, rightVerified, _ =>
      show cmp left.value right.value = .eq ↔
        double left.dropZeroSign = double right.dropZeroSign
      rw [Double.cmp_value (isNaN_of_verified leftVerified) (isNaN_of_verified rightVerified),
        compare_eq_iff_eq, ← left.signedMagnitude_dropZeroSign,
        ← right.signedMagnitude_dropZeroSign, double.injEq]
      exact ⟨Double.eq_of_signedMagnitude left.dropZeroSign_ne right.dropZeroSign_ne, congrArg _⟩
  | .text left, .text right, _, _, _ =>
      show Slice.compareBytes (Bytes.ofString left) (Bytes.ofString right) = .eq ↔
        text left = text right
      rw [Slice.compareBytes_eq_eq, Bytes.ofString_inj, text.injEq]
  | .bytes left, .bytes right, _, _, _ =>
      show Slice.compareBytes left right = .eq ↔ bytes left = bytes right
      rw [Slice.compareBytes_eq_eq, bytes.injEq]

/-! ### Reading -/

theorem takes_readBool (flag : Bool) :
    DataType.readBool.Takes [if flag then 1 else 0] flag := by
  rw [← List.append_nil [if flag then 1 else 0]]
  refine (takes_uint8 (if flag then 1 else 0)).bind ?_
  cases flag
  · exact Read.Takes.pure false
  · exact Read.Takes.pure true

/-- A text is read wherever it stands. -/
theorem read_readText (content : String) (offset : Nat) (rest : Bytes) :
    DataType.readText ⟨offset, escaped (Bytes.ofString content) ++ rest⟩ =
      (.ok content, ⟨offset + (escaped (Bytes.ofString content)).length, rest⟩) := by
  rw [DataType.readText, Action.bind_of_ok (read_escaped (Bytes.ofString content) offset rest),
    Bytes.toString?_ofString]
  rfl

theorem takes_readText (content : String) :
    DataType.readText.Takes (escaped (Bytes.ofString content)) content :=
  fun offset rest _ => read_readText content offset rest

/-- A reader takes the stored form of a value, and the sign of a zero is gone. -/
theorem takes_read {value : Value} (verified : value.verify = .ok ()) :
    value.dataType.read.Takes value.fieldBytes value.dropZeroSign := by
  cases value with
  | bool flag => exact (takes_readBool flag).mapped bool
  | int number => exact (takes_int32 number).mapped int
  | long number => exact (takes_int64 number).mapped long
  | double number =>
      rw [fieldBytes_double (isNaN_of_verified verified)]
      exact (takes_double number.dropZeroSign).mapped double
  | text content => exact (takes_readText content).mapped text
  | bytes content => exact (takes_escaped content).mapped bytes

end Value

end GraphStore
