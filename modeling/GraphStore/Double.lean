import GraphStore.Bytes

/-!
Contract: IEEE-754 binary64 numbers, held as their bits.

Owns:
- the fields of the format and the exact value `± significand · 2 ^ scale`;
- rounding of a ratio of naturals to the nearest double, ties to even, and with it
  products and quotients;
- the double of an integer, and the exact ratio that a finite double denotes;
- comparison, where the two zeros are equal and NaN stands in no relation;
- the part of a double behind its point, and the integer of a signed word that it is cut to.

Does not own decimal text. All arithmetic is exact arithmetic on naturals.
-/

namespace GraphStore

/-- A binary64 number. -/
structure Double where
  bits : UInt64
deriving DecidableEq, Repr

namespace Double

def signWeight : Nat := Nat.pow 2 63

/-- The weight of the exponent field, one more than the greatest fraction field. -/
def exponentWeight : Nat := Nat.pow 2 52

def infiniteMagnitude : Nat := 2047 * exponentWeight

def negative (number : Double) : Bool := signWeight ≤ number.bits.toNat

/-- The bits below the sign. -/
def magnitude (number : Double) : Nat := number.bits.toNat % signWeight

def exponentField (number : Double) : Nat := number.magnitude / exponentWeight

def fractionField (number : Double) : Nat := number.magnitude % exponentWeight

def isNaN (number : Double) : Bool := infiniteMagnitude < number.magnitude

def isFinite (number : Double) : Bool := number.magnitude < infiniteMagnitude

/-- The integer part of the exact absolute value of a finite double. -/
def significand (number : Double) : Nat :=
  if number.exponentField = 0 then number.fractionField
  else exponentWeight + number.fractionField

/-- The power of two that scales the significand. -/
def scale (number : Double) : Int :=
  if number.exponentField = 0 then -1074 else (number.exponentField : Int) - 1075

def ofMagnitude (negative : Bool) (magnitude : Nat) : Double :=
  ⟨UInt64.ofNat (if negative then signWeight + magnitude else magnitude)⟩

def zero : Double := ⟨0⟩

def negativeZero : Double := ofMagnitude true 0

def infinity (negative : Bool) : Double := ofMagnitude negative infiniteMagnitude

/-- The quiet NaN without payload. -/
def nan (negative : Bool) : Double := ofMagnitude negative (infiniteMagnitude + Nat.pow 2 51)

/-- Negative zero becomes zero; every other number stays. -/
def dropZeroSign (number : Double) : Double :=
  if number = negativeZero then zero else number

/-- The quotient rounded to the nearest natural, a half to the even neighbour. -/
def roundHalfEven (numerator denominator : Nat) : Nat :=
  let quotient := numerator / denominator
  let twice := 2 * (numerator % denominator)
  if twice < denominator then quotient
  else if denominator < twice then quotient + 1
  else if quotient % 2 = 0 then quotient else quotient + 1

/-- The scale at which a positive ratio has a 53-bit integer part, but not below
the least scale. -/
def scaleOfRatio (numerator denominator : Nat) : Int :=
  let low : Int := (numerator.log2 : Int) - denominator.log2 - 53
  let fits : Bool :=
    if 0 ≤ low then numerator < denominator * Nat.pow 2 low.toNat * Nat.pow 2 53
    else numerator * Nat.pow 2 (-low).toNat < denominator * Nat.pow 2 53
  max (if fits then low else low + 1) (-1074)

/-- The double nearest to `± numerator / denominator`, ties to even; what lies
beyond the largest finite double becomes infinite. -/
def ofRatio (negative : Bool) (numerator denominator : Nat) : Double :=
  if numerator = 0 then ofMagnitude negative 0
  else
    let scale := scaleOfRatio numerator denominator
    let rounded :=
      if 0 ≤ scale then roundHalfEven numerator (denominator * Nat.pow 2 scale.toNat)
      else roundHalfEven (numerator * Nat.pow 2 (-scale).toNat) denominator
    let magnitude :=
      if rounded < exponentWeight then rounded
      else (scale + 1075).toNat * exponentWeight + (rounded - exponentWeight)
    ofMagnitude negative (min magnitude infiniteMagnitude)

def ofInt (value : Int) : Double := ofRatio (value < 0) value.natAbs 1

/-- The absolute value of a finite double as a ratio of naturals. -/
def toRatio (number : Double) : Nat × Nat :=
  if 0 ≤ number.scale then (number.significand * Nat.pow 2 number.scale.toNat, 1)
  else (number.significand, Nat.pow 2 (-number.scale).toNat)

/-- The double nearest to the product of two finite doubles. -/
def product (left right : Double) : Double :=
  let first := left.toRatio
  let second := right.toRatio
  ofRatio (left.negative != right.negative) (first.1 * second.1) (first.2 * second.2)

/-- The double nearest to the quotient of two finite doubles, the second not zero. -/
def quotient (left right : Double) : Double :=
  let first := left.toRatio
  let second := right.toRatio
  ofRatio (left.negative != right.negative) (first.1 * second.2) (first.2 * second.1)

/-! ### Comparison and cutting -/

/-- The bits below the sign as a number with that sign. Both zeros have none. -/
def signedMagnitude (number : Double) : Int :=
  if number.negative then -(number.magnitude : Int) else number.magnitude

/-- Whether a relation holds of two doubles as numbers; none holds of NaN. -/
def compares (relation : Int → Int → Bool) (left right : Double) : Bool :=
  !left.isNaN && !right.isNaN && relation left.signedMagnitude right.signedMagnitude

def equals : Double → Double → Bool := compares (· = ·)

def atMost : Double → Double → Bool := compares (· ≤ ·)

def below : Double → Double → Bool := compares (· < ·)

/-- What lies behind the point, with the sign of the number. The infinities have no such part. -/
def fraction (number : Double) : Double :=
  if number.isFinite then
    let (numerator, denominator) := number.toRatio
    let part := numerator % denominator
    ofRatio (number.negative && part ≠ 0) part denominator
  else nan false

/-- The integer that is left when everything behind the point is dropped. -/
def wholePart (number : Double) : Int :=
  let (numerator, denominator) := number.toRatio
  let whole : Nat := numerator / denominator
  if number.negative then -(whole : Int) else whole

/-- The integer of a signed word next to the whole part; NaN counts as zero. -/
def toWord (bits : Nat) (number : Double) : Int :=
  if number.isNaN then 0
  else if number.isFinite then Word.clamp bits number.wholePart
  else if number.negative then -Word.reach bits else Word.reach bits - 1

end Double

end GraphStore
