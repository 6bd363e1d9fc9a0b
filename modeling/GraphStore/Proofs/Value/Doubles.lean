import GraphStore.Proofs.Encoding.Numbers
import Mathlib.Algebra.Order.Field.Power
import Mathlib.Algebra.Order.Field.Rat
import Mathlib.Data.Int.ConditionallyCompleteOrder
import Mathlib.Order.Compare
import Mathlib.Order.Monotone.Odd
import Mathlib.Tactic.Positivity
import Mathlib.Tactic.Ring

/-!
Contract: doubles in the order of the numbers they stand for.

Owns the number of a double (`Double.value`): a rational, or one of the two infinities outside of
all rationals. The absolute value grows with the magnitude bits, through the subnormal numbers and
from one exponent to the next (`unitCount_strictMono`), so numbers compare as signed magnitudes do
(`cmp_value`).
-/

namespace GraphStore

namespace Double

/-! ### Numbers -/

def absoluteValue (number : Double) : ℚ := number.significand * 2 ^ number.scale

def finiteValue (number : Double) : ℚ :=
  if number.negative then -number.absoluteValue else number.absoluteValue

/-- The number a double stands for. Those that are not finite lie outside of all rationals. -/
def value (number : Double) : WithBot (WithTop ℚ) :=
  if number.isFinite then (number.finiteValue : WithTop ℚ)
  else if number.negative then ⊥ else (⊤ : WithTop ℚ)

/-! ### Magnitudes -/

/-- How often the least positive double goes into the one with the given magnitude bits. -/
def unitCount (magnitude : Nat) : Nat :=
  if magnitude / exponentWeight = 0 then magnitude % exponentWeight
  else (exponentWeight + magnitude % exponentWeight) * 2 ^ (magnitude / exponentWeight - 1)

theorem exponentWeight_pos : 0 < exponentWeight := by decide

theorem unitCount_fields {exponent fraction : Nat} (fits : fraction < exponentWeight) :
    unitCount (fraction + exponentWeight * exponent) =
      if exponent = 0 then fraction else (exponentWeight + fraction) * 2 ^ (exponent - 1) := by
  rw [unitCount, Nat.add_mul_div_left fraction exponent exponentWeight_pos,
    Nat.add_mul_mod_self_left, Nat.div_eq_of_lt fits, Nat.mod_eq_of_lt fits, Nat.zero_add]

theorem unitCount_lt_succ (magnitude : Nat) : unitCount magnitude < unitCount (magnitude + 1) := by
  obtain ⟨exponent, fraction, fits, rfl⟩ : ∃ exponent fraction, fraction < exponentWeight ∧
      magnitude = fraction + exponentWeight * exponent :=
    ⟨_, _, Nat.mod_lt magnitude exponentWeight_pos, (Nat.mod_add_div magnitude _).symm⟩
  rw [unitCount_fields fits]
  by_cases last : fraction + 1 = exponentWeight
  · -- the next double starts the next exponent
    have next : fraction + exponentWeight * exponent + 1 =
        0 + exponentWeight * (exponent + 1) := by
      rw [Nat.mul_succ]
      omega
    rw [next, unitCount_fields exponentWeight_pos, if_neg (Nat.succ_ne_zero exponent),
      Nat.add_sub_cancel]
    rcases exponent with _ | exponent
    · rw [if_pos rfl, pow_zero]
      omega
    · rw [if_neg (Nat.succ_ne_zero exponent), Nat.add_sub_cancel, pow_succ, Nat.mul_comm (2 ^ _) 2,
        ← Nat.mul_assoc]
      exact Nat.mul_lt_mul_of_pos_right (by omega) (Nat.two_pow_pos exponent)
  · have next : fraction + exponentWeight * exponent + 1 =
        (fraction + 1) + exponentWeight * exponent := by omega
    rw [next, unitCount_fields (by omega)]
    split
    · exact Nat.lt_succ_self fraction
    · exact Nat.mul_lt_mul_of_pos_right (by omega) (Nat.two_pow_pos _)

/-- The absolute value grows with the magnitude bits. -/
theorem unitCount_strictMono : StrictMono unitCount := strictMono_nat_of_lt_succ unitCount_lt_succ

def unit : ℚ := 2 ^ (-1074 : ℤ)

theorem unit_pos : 0 < unit := by
  rw [unit]
  positivity

/-- The absolute value of a double is a number of least units. -/
theorem absoluteValue_eq (number : Double) :
    number.absoluteValue = unitCount number.magnitude * unit := by
  rw [absoluteValue, significand, scale, unitCount, exponentField, fractionField, unit]
  generalize number.magnitude / exponentWeight = exponent
  split
  · rfl
  · have powers : (exponent : ℤ) - 1075 = ((exponent - 1 : Nat) : ℤ) + -1074 := by omega
    rw [powers, zpow_add₀ two_ne_zero, zpow_natCast, Nat.cast_mul, Nat.cast_pow, mul_assoc]
    rfl

/-! ### Order -/

/-- The number with the given signed magnitude, where it is finite. -/
def signedValue (signed : ℤ) : ℚ := signed.sign * (unitCount signed.natAbs * unit)

theorem signedValue_neg (signed : ℤ) : signedValue (-signed) = -signedValue signed := by
  rw [signedValue, signedValue, Int.sign_neg, Int.natAbs_neg]
  push_cast
  ring

theorem signedValue_natCast (magnitude : Nat) :
    signedValue magnitude = unitCount magnitude * unit := by
  rcases magnitude with _ | magnitude
  · simp [signedValue, unitCount]
  · rw [signedValue, Int.sign_natCast_of_ne_zero (Nat.succ_ne_zero magnitude), Int.natAbs_natCast,
      Int.cast_one, one_mul]

/-- Greater magnitudes stand for greater numbers. -/
theorem signedValue_strictMono : StrictMono signedValue := by
  refine strictMono_of_odd_strictMonoOn_nonneg signedValue_neg ?_
  intro left leftSize right rightSize less
  lift left to ℕ using leftSize
  lift right to ℕ using rightSize
  rw [signedValue_natCast, signedValue_natCast]
  have counts : unitCount left < unitCount right := unitCount_strictMono (by exact_mod_cast less)
  exact mul_lt_mul_of_pos_right (by exact_mod_cast counts) unit_pos

/-- The number with the given signed magnitude, which lies between those of the infinities. -/
def boundedValue (signed : ℤ) : WithBot (WithTop ℚ) :=
  if signed ≤ -infiniteMagnitude then ⊥
  else if infiniteMagnitude ≤ signed then (⊤ : WithTop ℚ) else (signedValue signed : WithTop ℚ)

theorem boundedValue_lt {left right : ℤ} (less : left < right)
    (low : -(infiniteMagnitude : ℤ) ≤ left) (high : right ≤ infiniteMagnitude) :
    boundedValue left < boundedValue right := by
  have leftBelow : ¬ (infiniteMagnitude : ℤ) ≤ left := by omega
  have rightAbove : ¬ right ≤ -(infiniteMagnitude : ℤ) := by omega
  rw [boundedValue, boundedValue, if_neg leftBelow, if_neg rightAbove]
  by_cases least : left ≤ -(infiniteMagnitude : ℤ)
  · rw [if_pos least]
    split <;> exact WithBot.bot_lt_coe _
  · rw [if_neg least]
    split <;> rw [WithBot.coe_lt_coe]
    · exact WithTop.coe_lt_top _
    · exact WithTop.coe_lt_coe.2 (signedValue_strictMono less)

theorem signedMagnitude_bounds {number : Double} (isNumber : number.isNaN = false) :
    -(infiniteMagnitude : ℤ) ≤ number.signedMagnitude ∧
      number.signedMagnitude ≤ infiniteMagnitude := by
  have size : ¬ infiniteMagnitude < number.magnitude := of_decide_eq_false isNumber
  rw [signedMagnitude]
  split <;> omega

theorem value_eq_boundedValue {number : Double} (isNumber : number.isNaN = false) :
    number.value = boundedValue number.signedMagnitude := by
  have most : ¬ infiniteMagnitude < number.magnitude := of_decide_eq_false isNumber
  have positive : 0 < infiniteMagnitude := by decide
  by_cases finite : number.magnitude < infiniteMagnitude
  · rw [value, isFinite, decide_eq_true finite, if_pos rfl, finiteValue, boundedValue,
      absoluteValue_eq, ← signedValue_natCast, signedMagnitude]
    split
    · rw [if_neg (by omega), if_neg (by omega), signedValue_neg]
    · rw [if_neg (by omega), if_neg (by omega)]
  · have size : number.magnitude = infiniteMagnitude := by omega
    rw [value, isFinite, decide_eq_false finite, if_neg Bool.false_ne_true, boundedValue,
      signedMagnitude, size]
    split
    · rw [if_pos (le_refl _)]
    · rw [if_neg (by omega), if_pos (le_refl _)]

/-- Numbers compare as their signed magnitudes. -/
theorem cmp_value {left right : Double} (leftNumber : left.isNaN = false)
    (rightNumber : right.isNaN = false) :
    cmp left.value right.value = compare left.signedMagnitude right.signedMagnitude := by
  obtain ⟨leftLow, leftHigh⟩ := signedMagnitude_bounds leftNumber
  obtain ⟨rightLow, rightHigh⟩ := signedMagnitude_bounds rightNumber
  rw [value_eq_boundedValue leftNumber, value_eq_boundedValue rightNumber]
  rcases ranked : compare left.signedMagnitude right.signedMagnitude with _ | _ | _
  · exact (cmp_eq_lt_iff _ _).2 (boundedValue_lt (Int.compare_eq_lt.1 ranked) leftLow rightHigh)
  · exact (cmp_eq_eq_iff _ _).2 (congrArg boundedValue (Int.compare_eq_eq.1 ranked))
  · exact (cmp_eq_gt_iff _ _).2 (boundedValue_lt (Int.compare_eq_gt.1 ranked) rightLow leftHigh)

end Double

end GraphStore
