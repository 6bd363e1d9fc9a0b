import GraphStore.Bytes
import GraphStore.Decimal.Reading
import GraphStore.Json.Basic

/-!
Contract: numbers in the text of JSON documents.

Owns their grammar, the choice between integer and double, and the reading of doubles.
A number without point and exponent is an integer if it fits 64 bits, signed or
unsigned, and a double otherwise; `-0` is a double.

A double is read in two roundings. The digits, as many as fit 64 bits, are rounded to a
double; multiplying or dividing that by a power of ten rounds again. With at most fifteen
digits and a power of ten up to 22 the first step is exact and so is the power, which
makes the result the nearest double; otherwise it may be a neighbour of it. A number that
is too large for a double is refused.
-/

namespace GraphStore.Json

/-- Appends digits to a number while it fits 64 bits; answers also the digits left. -/
def appendDigits (total : Nat) : List Char → Nat × List Char
  | [] => (total, [])
  | digit :: digits =>
    let next := total * 10 + Decimal.digitValue digit
    if next < Word.count 64 then appendDigits next digits else (total, digit :: digits)

/-- The greatest power of ten that a double can be close to. -/
def greatestPower : Nat := 308

def powerOfTen (exponent : Nat) : Double := Double.ofRatio false (Nat.pow 10 exponent) 1

/-- A positive double times a power of ten, rounded at every step; `none` when it grows
beyond all finite doubles. -/
def scaleByTen? (value : Double) (exponent : Int) : Option Double :=
  if exponent < -(greatestPower : Int) then
    if value = Double.zero then some value
    else scaleByTen? (value.quotient (powerOfTen greatestPower)) (exponent + greatestPower)
  else if exponent < 0 then some (value.quotient (powerOfTen exponent.natAbs))
  else if exponent ≤ greatestPower then
    let scaled := value.product (powerOfTen exponent.toNat)
    if scaled.isFinite then some scaled else none
  else if value = Double.zero then some value
  else none
termination_by exponent.natAbs
decreasing_by
  simp only [greatestPower] at *
  omega

/-- The double with a sign, digits and a power of ten. -/
def scaled? (negative : Bool) (digits : Nat) (exponent : Int) : Option Json :=
  (scaleByTen? (Double.ofInt digits) exponent).map fun value =>
    .double (Double.ofMagnitude negative value.magnitude)

/-- The number without point and exponent. -/
def wholeNumber? (negative : Bool) (whole : List Char) : Option Json :=
  let (value, left) := appendDigits 0 whole
  if left.isEmpty && !negative then some (.int value)
  else if left.isEmpty && 0 < value && value ≤ Word.reach 64 then some (.int (-(value : Int)))
  else scaled? negative value left.length

/-- The number with a fraction, which may be empty, and a power of ten. -/
def fractionalNumber? (negative : Bool) (whole fraction : List Char) (exponent : Int) :
    Option Json :=
  let (value, left) := appendDigits 0 whole
  let (value, ignored) := appendDigits value fraction
  let places : Int := fraction.length - ignored.length
  scaled? negative value (left.length - places + exponent)

/-- Whether digits may stand before the point: one zero, or no zero in front. -/
def isWhole : List Char → Bool
  | [] => false
  | ['0'] => true
  | first :: _ => first ≠ '0'

/-- The digits behind a point, and the text behind them. -/
def splitFraction? : List Char → Option (List Char × List Char)
  | '.' :: rest =>
    let digits := rest.takeWhile Char.isDigit
    if digits.isEmpty then none else some (digits, rest.dropWhile Char.isDigit)
  | rest => some ([], rest)

def numberOf? (chars : List Char) : Option Json :=
  let (negative, chars) := match chars with
    | '-' :: rest => (true, rest)
    | _ => (false, chars)
  let whole := chars.takeWhile Char.isDigit
  if isWhole whole then
    match chars.dropWhile Char.isDigit with
    | [] => wholeNumber? negative whole
    | rest => do
      let (fraction, rest) ← splitFraction? rest
      fractionalNumber? negative whole fraction (← Decimal.readExponent? rest)
  else none

end GraphStore.Json
