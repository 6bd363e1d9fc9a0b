import GraphStore.Proofs.Value.Doubles
import GraphStore.Value.Codec

/-!
Contract: doubles and wide integers that are converted to integers.

Owns which integer a double denotes (`Double.Denotes`), and that the tests by which a conversion
accepts a double decide exactly that: nothing lies behind the point
(`fraction_equals_zero_iff`), and comparison with the bounds as doubles is comparison of integers
(`atMost_iff`). So a conversion answers the integer itself or refuses the value
(`conversions_exact`).
-/

namespace GraphStore

namespace Double

/-- The double is finite and the integer is its number. -/
def Denotes (number : Double) (whole : Int) : Prop :=
  number.isFinite = true ∧ number.finiteValue = whole

/-! ### Ratios -/

theorem scale_ge (number : Double) : -1074 ≤ number.scale := by
  unfold scale
  split <;> omega

theorem denominator_eq (number : Double) :
    ∃ exponent ≤ 1074, number.toRatio.2 = 2 ^ exponent := by
  have least := number.scale_ge
  unfold toRatio
  split
  · exact ⟨0, by omega, rfl⟩
  · exact ⟨(-number.scale).toNat, by omega, rfl⟩

theorem denominator_pos (number : Double) : 0 < number.toRatio.2 := by
  obtain ⟨exponent, -, isPower⟩ := number.denominator_eq
  rw [isPower]
  exact Nat.two_pow_pos exponent

theorem absoluteValue_eq_ratio (number : Double) :
    number.absoluteValue = number.toRatio.1 / number.toRatio.2 := by
  rw [absoluteValue, toRatio]
  split
  · rename_i whole
    obtain ⟨exponent, isExponent⟩ := Int.eq_ofNat_of_zero_le whole
    simp only [isExponent, Int.toNat_natCast, Nat.cast_mul, Nat.pow_eq, Nat.cast_pow,
      Nat.cast_ofNat, Nat.cast_one, div_one, zpow_natCast]
  · rename_i broken
    obtain ⟨exponent, isExponent⟩ := Int.eq_ofNat_of_zero_le (a := -number.scale) (by omega)
    have isScale : number.scale = -(exponent : ℤ) := by omega
    rw [isExponent, Int.toNat_natCast, Nat.pow_eq, Nat.cast_pow, Nat.cast_ofNat, isScale, zpow_neg,
      zpow_natCast, div_eq_mul_inv]

/-- A ratio is an integer where it leaves no remainder, and then it is the quotient. -/
theorem ratio_eq_iff {numerator denominator : Nat} (positive : 0 < denominator) {whole : Int} :
    (numerator : ℚ) / denominator = whole ↔
      numerator % denominator = 0 ∧ ((numerator / denominator : Nat) : Int) = whole := by
  have nonzero : (denominator : ℚ) ≠ 0 := by exact_mod_cast positive.ne'
  rw [div_eq_iff nonzero]
  constructor
  · intro equal
    have product : (numerator : ℤ) = whole * denominator := by exact_mod_cast equal
    have divides : (denominator : ℤ) ∣ numerator := ⟨whole, by rw [product, mul_comm]⟩
    refine ⟨Nat.mod_eq_zero_of_dvd (Int.natCast_dvd_natCast.1 divides), ?_⟩
    rw [Int.natCast_div, product]
    exact Int.mul_ediv_cancel _ (by omega)
  · rintro ⟨exact, rfl⟩
    have product := Nat.div_add_mod numerator denominator
    rw [exact, Nat.add_zero, mul_comm] at product
    exact_mod_cast product.symm

theorem finiteValue_eq_iff {number : Double} {whole : Int} : number.finiteValue = whole ↔
    number.toRatio.1 % number.toRatio.2 = 0 ∧ number.wholePart = whole := by
  rw [finiteValue, absoluteValue_eq_ratio, wholePart]
  dsimp only
  split
  · rw [neg_eq_iff_eq_neg, ← Int.cast_neg, ratio_eq_iff number.denominator_pos]
    refine and_congr_right fun _ => ?_
    omega
  · exact ratio_eq_iff number.denominator_pos

/-! ### Rounding -/

theorem magnitude_ofMagnitude {negative : Bool} {magnitude : Nat} (fits : magnitude < signWeight) :
    (ofMagnitude negative magnitude).magnitude = magnitude := by
  rw [signWeight_eq] at fits
  rw [ofMagnitude, Double.magnitude, UInt64.toNat_ofNat', signWeight_eq]
  split <;> omega

theorem roundHalfEven_pos {numerator denominator : Nat} (positive : 0 < denominator)
    (enough : denominator ≤ numerator) : 0 < roundHalfEven numerator denominator := by
  have quotient : 0 < numerator / denominator := Nat.div_pos enough positive
  unfold roundHalfEven
  dsimp only
  split
  · exact quotient
  · split
    · omega
    · split <;> omega

/-- The scale of a ratio is the least of all, or leaves its integer part at least 51 digits. -/
theorem scaleOfRatio_cases (numerator denominator : Nat) :
    scaleOfRatio numerator denominator = -1074 ∨
      -1074 < scaleOfRatio numerator denominator ∧
        scaleOfRatio numerator denominator + denominator.log2 + 1 ≤ numerator.log2 := by
  unfold scaleOfRatio
  dsimp only
  split <;> omega

/-- The integer part to which a ratio is rounded at its scale. -/
def scaledRatio (numerator denominator : Nat) : Nat :=
  let scale := scaleOfRatio numerator denominator
  if 0 ≤ scale then roundHalfEven numerator (denominator * Nat.pow 2 scale.toNat)
  else roundHalfEven (numerator * Nat.pow 2 (-scale).toNat) denominator

theorem scaledRatio_pos {numerator denominator exponent : Nat} (positive : 0 < denominator)
    (nonzero : numerator ≠ 0) (within : exponent ≤ 1074)
    (enough : denominator ≤ numerator * 2 ^ exponent) : 0 < scaledRatio numerator denominator := by
  have above : denominator ≤ 2 ^ (denominator.log2 + 1) := Nat.le_of_lt Nat.lt_log2_self
  have below : 2 ^ numerator.log2 ≤ numerator := Nat.log2_self_le nonzero
  have cases := scaleOfRatio_cases numerator denominator
  unfold scaledRatio
  generalize scaleOfRatio numerator denominator = scale at cases ⊢
  dsimp only
  split
  · refine roundHalfEven_pos (Nat.mul_pos positive (Nat.two_pow_pos _)) ?_
    calc denominator * 2 ^ scale.toNat
        ≤ 2 ^ (denominator.log2 + 1) * 2 ^ scale.toNat := Nat.mul_le_mul_right _ above
      _ = 2 ^ (denominator.log2 + 1 + scale.toNat) := (Nat.pow_add 2 _ _).symm
      _ ≤ 2 ^ numerator.log2 := Nat.pow_le_pow_right (by omega) (by omega)
      _ ≤ numerator := below
  · refine roundHalfEven_pos positive ?_
    rcases cases with least | ⟨-, room⟩
    · calc denominator
          ≤ numerator * 2 ^ exponent := enough
        _ ≤ numerator * 2 ^ (-scale).toNat :=
            Nat.mul_le_mul_left _ (Nat.pow_le_pow_right (by omega) (by omega))
    · calc denominator
          ≤ 2 ^ (denominator.log2 + 1) := above
        _ ≤ 2 ^ (numerator.log2 + (-scale).toNat) := Nat.pow_le_pow_right (by omega) (by omega)
        _ = 2 ^ numerator.log2 * 2 ^ (-scale).toNat := Nat.pow_add 2 _ _
        _ ≤ numerator * 2 ^ (-scale).toNat := Nat.mul_le_mul_right _ below

theorem magnitude_ofRatio_le (negative : Bool) (numerator denominator : Nat) :
    (ofRatio negative numerator denominator).magnitude ≤ infiniteMagnitude := by
  have fits : infiniteMagnitude < signWeight := by decide
  unfold ofRatio
  split
  · rw [magnitude_ofMagnitude (by decide)]
    exact Nat.zero_le _
  · rw [magnitude_ofMagnitude (Nat.lt_of_le_of_lt (Nat.min_le_right _ _) fits)]
    exact Nat.min_le_right _ _

/-- A ratio that is not below the least positive double is not rounded to zero. -/
theorem magnitude_ofRatio_pos {negative : Bool} {numerator denominator exponent : Nat}
    (positive : 0 < denominator) (nonzero : numerator ≠ 0) (within : exponent ≤ 1074)
    (enough : denominator ≤ numerator * 2 ^ exponent) :
    0 < (ofRatio negative numerator denominator).magnitude := by
  have fits : infiniteMagnitude < signWeight := by decide
  have infinite : 0 < infiniteMagnitude := by decide
  have rounded := scaledRatio_pos positive nonzero within enough
  have least := scaleOfRatio_cases numerator denominator
  have unfolded : ofRatio negative numerator denominator = ofMagnitude negative
      (min (if scaledRatio numerator denominator < exponentWeight then
          scaledRatio numerator denominator
        else (scaleOfRatio numerator denominator + 1075).toNat * exponentWeight
          + (scaledRatio numerator denominator - exponentWeight)) infiniteMagnitude) := by
    rw [ofRatio, if_neg nonzero]
    rfl
  rw [unfolded, magnitude_ofMagnitude (Nat.lt_of_le_of_lt (Nat.min_le_right _ _) fits), Nat.lt_min]
  refine ⟨?_, infinite⟩
  split
  · exact rounded
  · have raised : 0 < (scaleOfRatio numerator denominator + 1075).toNat := by omega
    exact Nat.add_pos_left (Nat.mul_pos raised exponentWeight_pos) _

/-! ### The tests of a conversion -/

theorem isNaN_of_isFinite {number : Double} (finite : number.isFinite = true) :
    number.isNaN = false := by
  have less : number.magnitude < infiniteMagnitude := of_decide_eq_true finite
  exact decide_eq_false (by omega)

theorem signedMagnitude_eq_zero_iff {number : Double} :
    number.signedMagnitude = 0 ↔ number.magnitude = 0 := by
  unfold signedMagnitude
  split <;> omega

/-- A double has no fraction just if it is finite and its ratio leaves no remainder. -/
theorem fraction_equals_zero_iff {number : Double} : number.fraction.equals .zero = true ↔
    number.isFinite = true ∧ number.toRatio.1 % number.toRatio.2 = 0 := by
  have zeroIsNumber : zero.isNaN = false := by decide
  have zeroMagnitude : zero.signedMagnitude = 0 := by decide
  have equals_zero : ∀ part : Double, part.equals .zero = true ↔
      part.isNaN = false ∧ part.magnitude = 0 := by
    intro part
    simp [equals, compares, zeroIsNumber, zeroMagnitude, signedMagnitude_eq_zero_iff]
  rw [equals_zero, fraction]
  by_cases finite : number.isFinite = true
  · rw [if_pos finite]
    dsimp only
    have isNumber : ∀ negative numerator denominator,
        (ofRatio negative numerator denominator).isNaN = false :=
      fun negative numerator denominator =>
        decide_eq_false (Nat.not_lt.2 (magnitude_ofRatio_le negative numerator denominator))
    rw [isNumber]
    by_cases none : number.toRatio.1 % number.toRatio.2 = 0
    · simp only [none, finite, ofRatio, if_true, true_and, and_true, iff_true]
      exact magnitude_ofMagnitude (by decide)
    · obtain ⟨exponent, within, isPower⟩ := number.denominator_eq
      have enough : number.toRatio.2 ≤ number.toRatio.1 % number.toRatio.2 * 2 ^ exponent := by
        rw [isPower]
        exact Nat.le_mul_of_pos_left _ (Nat.pos_of_ne_zero (isPower ▸ none))
      simp only [none, finite, and_false, iff_false, true_and]
      exact (magnitude_ofRatio_pos number.denominator_pos none within enough).ne'
  · rw [if_neg finite]
    have notNumber : (nan false).isNaN = true := by decide
    simp [finite, notNumber]

theorem finiteValue_eq_signedValue (number : Double) :
    number.finiteValue = signedValue number.signedMagnitude := by
  rw [finiteValue, absoluteValue_eq, ← signedValue_natCast, signedMagnitude]
  split
  · exact (signedValue_neg _).symm
  · rfl

variable {left right number : Double} {low high whole : Int}

theorem signedMagnitude_le_iff (ofLeft : left.Denotes low) (ofRight : right.Denotes high) :
    left.signedMagnitude ≤ right.signedMagnitude ↔ low ≤ high := by
  rw [← signedValue_strictMono.le_iff_le, ← finiteValue_eq_signedValue,
    ← finiteValue_eq_signedValue, ofLeft.2, ofRight.2, Int.cast_le]

/-- Doubles that denote integers compare as these. -/
theorem atMost_iff (ofLeft : left.Denotes low) (ofRight : right.Denotes high) :
    left.atMost right = true ↔ low ≤ high := by
  simp [atMost, compares, isNaN_of_isFinite ofLeft.1, isNaN_of_isFinite ofRight.1,
    signedMagnitude_le_iff ofLeft ofRight]

theorem below_iff (ofLeft : left.Denotes low) (ofRight : right.Denotes high) :
    left.below right = true ↔ low < high := by
  have order := signedMagnitude_le_iff ofRight ofLeft
  simp only [below, compares, isNaN_of_isFinite ofLeft.1, isNaN_of_isFinite ofRight.1,
    Bool.not_false, Bool.and_self, Bool.true_and, decide_eq_true_eq]
  omega

/-- A double stands for an integer just if it has no fraction and the integer is its whole part. -/
theorem denotes_iff : number.Denotes whole ↔
    number.fraction.equals .zero = true ∧ number.wholePart = whole := by
  rw [Denotes, finiteValue_eq_iff, fraction_equals_zero_iff, and_assoc]

theorem toWord_eq {bits : Nat} (denotes : number.Denotes whole)
    (held : Word.holds bits whole = true) : number.toWord bits = whole := by
  obtain ⟨least, greatest⟩ : -(Word.reach bits : Int) ≤ whole ∧ whole < Word.reach bits := by
    simpa [Word.holds] using held
  rw [toWord, isNaN_of_isFinite denotes.1, if_neg Bool.false_ne_true, if_pos denotes.1,
    (denotes_iff.1 denotes).2, Word.clamp]
  omega

/-- What is cut to a word after tests that leave the integers of the word, is the integer. -/
theorem word_eq_some {α : Type} {bits : Nat} {tests : Bool} {ofInt : Int → α} {answer : α}
    (tests_iff : tests = true ↔ ∃ whole, number.Denotes whole ∧ Word.holds bits whole = true) :
    (if tests = true then some (ofInt (number.toWord bits)) else none) = some answer ↔
      ∃ whole, number.Denotes whole ∧ Word.holds bits whole = true ∧ answer = ofInt whole := by
  rw [Option.ite_none_right_eq_some, tests_iff]
  constructor
  · rintro ⟨⟨whole, denotes, held⟩, same⟩
    rw [toWord_eq denotes held] at same
    exact ⟨whole, denotes, held, (Option.some.inj same).symm⟩
  · rintro ⟨whole, denotes, held, rfl⟩
    exact ⟨⟨whole, denotes, held⟩, by rw [toWord_eq denotes held]⟩

/-- A test against the least integer of a word and one against the greatest leave these integers. -/
theorem tests_iff {bits : Nat} {least : Double} {notAbove : Bool}
    (ofLeast : least.Denotes (-(Word.reach bits : Int)))
    (ofNotAbove : ∀ {whole}, number.Denotes whole →
      (notAbove = true ↔ whole < Word.reach bits)) :
    (number.fraction.equals .zero && least.atMost number && notAbove) = true ↔
      ∃ whole, number.Denotes whole ∧ Word.holds bits whole = true := by
  simp only [Word.holds, Bool.and_eq_true, decide_eq_true_eq]
  constructor
  · rintro ⟨⟨exact, low⟩, high⟩
    have denotes : number.Denotes number.wholePart := denotes_iff.2 ⟨exact, rfl⟩
    exact ⟨_, denotes, (atMost_iff ofLeast denotes).1 low, (ofNotAbove denotes).1 high⟩
  · rintro ⟨whole, denotes, low, high⟩
    exact ⟨⟨(denotes_iff.1 denotes).1, (atMost_iff ofLeast denotes).2 low⟩,
      (ofNotAbove denotes).2 high⟩

/-! ### Bounds -/

theorem denotes_least32 : (ofInt (-Word.reach 32)).Denotes (-Word.reach 32) :=
  denotes_iff.2 (by decide +kernel)

theorem denotes_greatest32 : (ofInt (Word.reach 32 - 1)).Denotes (Word.reach 32 - 1) :=
  denotes_iff.2 (by decide +kernel)

theorem denotes_least64 : (ofInt (-Word.reach 64)).Denotes (-Word.reach 64) :=
  denotes_iff.2 (by decide +kernel)

/-- The greatest 64-bit integer is rounded up. -/
theorem denotes_greatest64 : (ofInt (Word.reach 64 - 1)).Denotes (Word.reach 64) :=
  denotes_iff.2 (by decide +kernel)

end Double

/-! ### Conversions -/

namespace DataType

open Double

theorem int32OfDouble?_eq_some {number : Double} {answer : Int32} :
    int32OfDouble? number = some answer ↔
      ∃ whole, number.Denotes whole ∧ Word.holds 32 whole = true ∧ answer = Int32.ofInt whole := by
  refine word_eq_some (tests_iff denotes_least32 fun denotes => ?_)
  rw [atMost_iff denotes denotes_greatest32]
  omega

theorem int64OfDouble?_eq_some {number : Double} {answer : Int64} :
    int64OfDouble? number = some answer ↔
      ∃ whole, number.Denotes whole ∧ Word.holds 64 whole = true ∧ answer = Int64.ofInt whole :=
  word_eq_some (tests_iff denotes_least64 fun denotes => below_iff denotes denotes_greatest64)

theorem int32OfInt?_eq_some {whole : Int} {answer : Int32} :
    int32OfInt? whole = some answer ↔ Word.holds 32 whole = true ∧ answer = Int32.ofInt whole := by
  rw [int32OfInt?, Option.ite_none_right_eq_some, Option.some.injEq, eq_comm (a := answer)]

end DataType

/-- The integer that a value of one of the integer types holds. -/
def Value.whole? : Value → Option Int
  | int number => some number.toInt
  | long number => some number.toInt
  | _ => none

theorem Value.whole?_int {whole : Int} (held : Word.holds 32 whole = true) :
    (int (Int32.ofInt whole)).whole? = some whole := by
  have reach : Word.reach 32 = 2147483648 := rfl
  simp only [Word.holds, Bool.and_eq_true, decide_eq_true_eq] at held
  exact congrArg some (Int32.toInt_ofInt_of_le (by omega) (by omega))

theorem Value.whole?_long {whole : Int} (held : Word.holds 64 whole = true) :
    (long (Int64.ofInt whole)).whole? = some whole := by
  have reach : Word.reach 64 = 9223372036854775808 := rfl
  simp only [Word.holds, Bool.and_eq_true, decide_eq_true_eq] at held
  exact congrArg some (Int64.toInt_ofInt_of_le (by omega) (by omega))

/-- How a value that may stand for an integer converts to an integer type of some width: to exactly
that integer if a word of the width holds it, and not at all otherwise. -/
structure DataType.ConvertsExactly (target : DataType) (bits : Nat) (value : Value)
    (StandsFor : Int → Prop) : Prop where
  answered : ∀ whole, StandsFor whole → Word.holds bits whole = true →
    ∃ answer, target.convert value = .ok answer ∧ answer.dataType = target ∧
      answer.whole? = some whole
  refused : (¬ ∃ whole, StandsFor whole ∧ Word.holds bits whole = true) →
    target.convert value = .error (.invalidValue (.inconvertible value target))

/-- It is enough to know which words are found. -/
theorem DataType.ConvertsExactly.of_found {target : DataType} {bits : Nat} {value : Value}
    {StandsFor : Int → Prop} {α : Type} {found? : Option α} {ofInt : Int → α} {wrap : α → Value}
    (converts : target.convert? value = found?.map wrap)
    (found_iff : ∀ answer, found? = some answer ↔
      ∃ whole, StandsFor whole ∧ Word.holds bits whole = true ∧ answer = ofInt whole)
    (typed : ∀ answer, (wrap answer).dataType = target)
    (kept : ∀ whole, Word.holds bits whole = true → (wrap (ofInt whole)).whole? = some whole) :
    target.ConvertsExactly bits value StandsFor where
  answered whole stands held := by
    refine ⟨wrap (ofInt whole), ?_, typed _, kept whole held⟩
    rw [convert, converts, (found_iff _).2 ⟨whole, stands, held, rfl⟩, Option.map_some]
  refused nothing := by
    have missing : found? = none := by
      refine Option.eq_none_iff_forall_ne_some.2 fun answer found => nothing ?_
      obtain ⟨whole, stands, held, -⟩ := (found_iff answer).1 found
      exact ⟨whole, stands, held⟩
    rw [convert, converts, missing, Option.map_none]

/-- A double converts to an integer type if it is finite, integral and within the range, and a wide
integer if it is within the range; the answer is the number itself. All others are refused. -/
theorem conversions_exact (number : Double) (given : Int64) :
    DataType.integer.ConvertsExactly 32 (.double number) number.Denotes ∧
    DataType.long.ConvertsExactly 64 (.double number) number.Denotes ∧
    DataType.integer.ConvertsExactly 32 (.long given) (· = given.toInt) := by
  refine ⟨?_, ?_, ?_⟩
  · exact .of_found rfl (fun _ => DataType.int32OfDouble?_eq_some) (fun _ => rfl)
      fun _ => Value.whole?_int
  · exact .of_found rfl (fun _ => DataType.int64OfDouble?_eq_some) (fun _ => rfl)
      fun _ => Value.whole?_long
  · refine .of_found rfl (fun answer => ?_) (fun _ => rfl) fun _ => Value.whole?_int
    show DataType.int32OfInt? given.toInt = some answer ↔ _
    rw [DataType.int32OfInt?_eq_some]
    simp

/-- A zero with a sign, the greatest double below `2 ^ 63` and `2 ^ 63` itself, to which the
greatest integer is rounded, an infinity, and an integer beyond 32 bits. -/
theorem conversions_exact_bounds :
    (∃ answer, DataType.integer.convert (.double .negativeZero) = .ok answer ∧
      answer.whole? = some 0) ∧
    (∃ answer, DataType.long.convert (.double ⟨0x43dfffffffffffff⟩) = .ok answer ∧
      answer.whole? = some 9223372036854774784) ∧
    DataType.long.convert (.double ⟨0x43e0000000000000⟩) =
      .error (.invalidValue (.inconvertible (.double ⟨0x43e0000000000000⟩) .long)) ∧
    DataType.integer.convert (.double (.infinity true)) =
      .error (.invalidValue (.inconvertible (.double (.infinity true)) .integer)) ∧
    DataType.integer.convert (.long 2147483648) =
      .error (.invalidValue (.inconvertible (.long 2147483648) .integer)) := by
  refine ⟨?_, ?_, ?_, ?_, ?_⟩
  · have denotes : Double.Denotes .negativeZero 0 := Double.denotes_iff.2 (by decide +kernel)
    obtain ⟨answer, converts, -, whole⟩ :=
      (conversions_exact .negativeZero 0).1.answered 0 denotes (by decide)
    exact ⟨answer, converts, whole⟩
  · have denotes : Double.Denotes ⟨0x43dfffffffffffff⟩ 9223372036854774784 :=
      Double.denotes_iff.2 (by decide +kernel)
    obtain ⟨answer, converts, -, whole⟩ :=
      (conversions_exact ⟨0x43dfffffffffffff⟩ 0).2.1.answered _ denotes (by decide)
    exact ⟨answer, converts, whole⟩
  · refine (conversions_exact ⟨0x43e0000000000000⟩ 0).2.1.refused ?_
    rintro ⟨whole, denotes, held⟩
    rw [← (Double.denotes_iff.1 denotes).2] at held
    exact absurd held (by decide +kernel)
  · refine (conversions_exact (.infinity true) 0).1.refused ?_
    rintro ⟨whole, denotes, held⟩
    exact absurd denotes.1 (by decide)
  · refine (conversions_exact .zero 2147483648).2.2.refused ?_
    rintro ⟨whole, rfl, held⟩
    exact absurd held (by decide)

end GraphStore
