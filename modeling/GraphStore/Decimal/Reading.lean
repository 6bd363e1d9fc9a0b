import GraphStore.Double

/-!
Contract: numbers read from decimal text.

Owns the grammar of integers (an optional sign and at least one digit) and of
doubles (an optional sign, then digits with an optional point and power of ten, or
one of the names `inf`, `infinity` and `nan` in any letter case). A double is the
one nearest to the decimal, ties to even.
-/

namespace GraphStore.Decimal

def digitValue (char : Char) : Nat := char.toNat - '0'.toNat

def natOfDigits (digits : List Char) : Nat :=
  digits.foldl (fun total digit => total * 10 + digitValue digit) 0

/-- Splits off an optional sign; the flag says whether it is a minus. -/
def splitSign : List Char → Bool × List Char
  | '+' :: rest => (false, rest)
  | '-' :: rest => (true, rest)
  | chars => (false, chars)

/-- The natural number written by at least one digit and nothing else. -/
def readNat? (chars : List Char) : Option Nat :=
  if chars ≠ [] ∧ chars.all Char.isDigit then some (natOfDigits chars) else none

/-- The integer a text denotes. -/
def readInt? (chars : List Char) : Option Int :=
  let (minus, digits) := splitSign chars
  (readNat? digits).map fun value => if minus then -(value : Int) else value

/-- The double nearest to `± digits · 10 ^ exponent`. Exponents far outside the
range of doubles are decided by the number of digits alone. -/
def nearest (negative : Bool) (digits : Nat) (exponent : Int) : Double :=
  let leading := exponent + (Nat.toDigits 10 digits).length
  if digits = 0 ∨ leading < -400 then Double.ofMagnitude negative 0
  else if 400 < leading then Double.infinity negative
  else if 0 ≤ exponent then Double.ofRatio negative (digits * Nat.pow 10 exponent.toNat) 1
  else Double.ofRatio negative digits (Nat.pow 10 (-exponent).toNat)

/-- The power of ten behind the digits: nothing, or `e` and an integer. -/
def readExponent? : List Char → Option Int
  | [] => some 0
  | mark :: rest => if mark = 'e' ∨ mark = 'E' then readInt? rest else none

/-- An unsigned decimal: digits, at least one of them, with an optional point
among or beside them, and an optional power of ten. -/
def readDecimal? (negative : Bool) (chars : List Char) : Option Double :=
  let whole := chars.takeWhile Char.isDigit
  let (fraction, rest) := match chars.dropWhile Char.isDigit with
    | '.' :: behind => (behind.takeWhile Char.isDigit, behind.dropWhile Char.isDigit)
    | behind => ([], behind)
  let digits := whole ++ fraction
  if digits = [] then none
  else (readExponent? rest).map fun exponent =>
    nearest negative (natOfDigits digits) (exponent - fraction.length)

def readDouble? (chars : List Char) : Option Double :=
  let (negative, body) := splitSign chars
  let name := String.ofList (body.map Char.toLower)
  if name = "inf" ∨ name = "infinity" then some (Double.infinity negative)
  else if name = "nan" then some (Double.nan negative)
  else readDecimal? negative body

end GraphStore.Decimal
