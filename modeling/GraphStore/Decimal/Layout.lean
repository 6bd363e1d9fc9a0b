import GraphStore.Double

/-!
Contract: the written form of a double.

Owns the fewest decimal digits that read back as a given finite double: the interval of reals that
round to it, the search over digit counts, and the choice among equally short candidates, of which
the nearer one is taken, and of two equally near ones the one that the caller's tie rule names.

Owns the layout record as well, and the three layouts in use: plain text, messages and JSON
documents. A layout decides how a tie between two of the shortest digit strings falls, where
positional notation ends, whether an integral number shows a zero behind the point and whether a
power of ten shows a plus sign.
-/

namespace GraphStore.Decimal

/-! ### Shortest digits -/

/-- Which of two equally near neighbours is taken. -/
inductive Tie where
  | larger
  | even
deriving DecidableEq, Repr

/-- Whether the lower of two equally near neighbours is taken. -/
def Tie.takesLower (tie : Tie) (lower : Nat) : Bool :=
  match tie with
  | .larger => false
  | .even => lower % 2 = 0

/-- A positive decimal `digits · 10 ^ exponent`. -/
structure Scaled where
  digits : Nat
  exponent : Int
deriving DecidableEq, Repr

/-- A positive double together with the reals that round to it: it is
`middle · 2 ^ scale`, and the interval from `low · 2 ^ scale` to `high · 2 ^ scale`
rounds to it, ends included when `closed`. -/
structure Interval where
  low : Nat
  middle : Nat
  high : Nat
  scale : Int
  closed : Bool
deriving DecidableEq, Repr

/-- The rounding interval of a finite, non-zero double. Its lower half is only half
as wide where the next smaller double has the next smaller exponent. -/
def Interval.ofDouble (number : Double) : Interval :=
  let significand := number.significand
  let narrow := number.fractionField = 0 && 1 < number.exponentField
  { low := if narrow then 4 * significand - 1 else 4 * significand - 2
    middle := 4 * significand
    high := 4 * significand + 2
    scale := number.scale - 2
    closed := significand % 2 = 0 }

/-- The factors that compare `n · 10 ^ exponent` with `x · 2 ^ scale` as naturals:
`n` times the first against `x` times the second. -/
def commonUnits (exponent scale : Int) : Nat × Nat :=
  (Nat.pow 10 exponent.toNat * Nat.pow 2 (-scale).toNat,
    Nat.pow 10 (-exponent).toNat * Nat.pow 2 scale.toNat)

/-- Whether a candidate on the grid of `10 ^ exponent` lies in the interval. -/
def Interval.holds (interval : Interval) (exponent : Int) (candidate : Nat) : Bool :=
  let units := commonUnits exponent interval.scale
  let position := candidate * units.1
  let low := interval.low * units.2
  let high := interval.high * units.2
  if interval.closed then low ≤ position && position ≤ high
  else low < position && position < high

/-- The grid point that stands for the interval's double on the grid of
`10 ^ exponent`, if one of the two neighbours of the double lies in the interval. -/
def Interval.onGrid? (interval : Interval) (tie : Tie) (exponent : Int) : Option Nat :=
  let units := commonUnits exponent interval.scale
  let target := interval.middle * units.2
  let below := target / units.1
  let above := below + 1
  match interval.holds exponent below, interval.holds exponent above with
  | true, true =>
    let down := target - below * units.1
    let up := above * units.1 - target
    some (if down < up || (down = up && tie.takesLower below) then below else above)
  | true, false => some below
  | false, true => some above
  | false, false => none

def digitCount (value : Nat) : Nat := (Nat.toDigits 10 value).length

/-- The decimal exponent of the first digit of `middle · 2 ^ scale`. -/
def Interval.leadingExponent (interval : Interval) : Int :=
  let units := commonUnits (-400) interval.scale
  (digitCount (interval.middle * units.2 / units.1) : Int) - 401

/-- Drops trailing zeros, at most `fuel` of them. -/
def Scaled.trim : (fuel : Nat) → Scaled → Scaled
  | 0, decimal => decimal
  | fuel + 1, decimal =>
    if decimal.digits % 10 = 0 ∧ decimal.digits ≠ 0 then
      Scaled.trim fuel ⟨decimal.digits / 10, decimal.exponent + 1⟩
    else decimal

/-- The first of the given digit counts with a decimal in the interval. -/
def Interval.search (interval : Interval) (tie : Tie) (leading : Int) :
    List Nat → Option Scaled
  | [] => none
  | count :: more =>
    let exponent := leading - count + 1
    match interval.onGrid? tie exponent with
    | some digits => some ⟨digits, exponent⟩
    | none => interval.search tie leading more

/-- The shortest decimal of a finite, non-zero double; seventeen digits always do. -/
def shortest (tie : Tie) (number : Double) : Scaled :=
  let interval := Interval.ofDouble number
  match interval.search tie interval.leadingExponent (List.range' 1 17) with
  | some decimal => decimal.trim 17
  | none => ⟨number.significand, 0⟩

/-! ### Layouts -/

/-- How decimal digits are laid out. `positional` says for which exponents of the
first digit no power of ten is written. -/
structure Layout where
  positional : Int → Bool
  showPointZero : Bool
  showPlus : Bool
  tie : Tie

/-- Plain text: always positional, and no point in an integral number. -/
def Layout.plain : Layout := ⟨fun _ => true, false, false, .larger⟩

/-- Messages: positional from `0.0001` up to, but not including, `10 ^ 16`. -/
def Layout.message : Layout :=
  ⟨fun leading => -4 ≤ leading && leading ≤ 15, true, false, .larger⟩

/-- JSON documents: positional from `0.00001` up to, but not including, `10 ^ 16`; powers
of ten show their sign. -/
def Layout.json : Layout := ⟨fun leading => -5 ≤ leading && leading ≤ 15, true, true, .even⟩

/-- The digits with the point after the digit of weight one. -/
def positionalText (showPointZero : Bool) (digits : List Char) (leading : Int) : List Char :=
  if leading < 0 then
    ['0', '.'] ++ List.replicate ((-leading).toNat - 1) '0' ++ digits
  else
    let wholeCount := leading.toNat + 1
    let whole := digits.take wholeCount ++ List.replicate (wholeCount - digits.length) '0'
    match digits.drop wholeCount with
    | [] => if showPointZero then whole ++ ['.', '0'] else whole
    | fraction => whole ++ ['.'] ++ fraction

/-- The digits with the point after the first one, and the power of ten. -/
def scientificText (showPlus : Bool) (digits : List Char) (leading : Int) : List Char :=
  let mantissa := match digits with
    | first :: second :: rest => first :: '.' :: second :: rest
    | short => short
  let plus := if showPlus && 0 ≤ leading then ['+'] else []
  mantissa ++ ['e'] ++ plus ++ (toString leading).toList

/-- The text of a finite absolute value. -/
def Layout.magnitudeText (layout : Layout) (number : Double) : List Char :=
  if number.magnitude = 0 then positionalText layout.showPointZero ['0'] 0
  else
    let decimal := shortest layout.tie number
    let digits := Nat.toDigits 10 decimal.digits
    let leading := decimal.exponent + digits.length - 1
    if layout.positional leading then positionalText layout.showPointZero digits leading
    else scientificText layout.showPlus digits leading

def Layout.text (layout : Layout) (number : Double) : String :=
  if number.isNaN then "NaN"
  else
    let sign := if number.negative then "-" else ""
    if number.isFinite then sign ++ String.ofList (layout.magnitudeText number)
    else sign ++ "inf"

end GraphStore.Decimal
