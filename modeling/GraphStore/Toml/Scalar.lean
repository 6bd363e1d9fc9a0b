import GraphStore.Bytes
import GraphStore.Decimal.Reading
import GraphStore.Json.Reading
import GraphStore.Toml.Tables

/-!
Contract: numbers, moments and strings of settings files.

Owns their grammar. Digits may be grouped by single underscores; decimal integers have
no leading zeros and all integers fit 64 bits. Dates exist in the calendar. Strings
stand in double quotes, with escapes, or in single quotes, without; tripled quotes
allow line breaks.
-/

namespace GraphStore.Toml

/-- The parts of a text between the occurrences of a mark. -/
def splitAtMark (mark : Char) : List Char → List (List Char)
  | [] => [[]]
  | char :: rest =>
    if char = mark then [] :: splitAtMark mark rest
    else match splitAtMark mark rest with
      | part :: parts => (char :: part) :: parts
      | [] => [[char]]

/-- Digits without the underscores that group them; each underscore stands between two
digits. -/
def ungroup? (isDigit : Char → Bool) (chars : List Char) : Option (List Char) :=
  let groups := splitAtMark '_' chars
  if groups.all fun group => !group.isEmpty && group.all isDigit then some groups.flatten
  else none

/-- Decimal digits without a leading zero. -/
def wholeDigits? (chars : List Char) : Option (List Char) :=
  match ungroup? Char.isDigit chars with
  | some ('0' :: _ :: _) => none
  | digits => digits

/-- The number that digits of a base below 17 write. -/
def baseNumber? (base : Nat) (chars : List Char) : Option Nat := do
  let digits ← ungroup? (fun char => (Json.hexValue? char).any (· < base)) chars
  return digits.foldl (fun total char => total * base + (Json.hexValue? char).getD 0) 0

def integerOf? (value : Int) : Option Toml :=
  if Word.holds 64 value then some (.integer value) else none

/-- An integer in decimal, hexadecimal, octal or binary digits. -/
def readInteger? (word : List Char) : Option Toml :=
  match word with
  | '0' :: 'x' :: digits => do integerOf? (← baseNumber? 16 digits)
  | '0' :: 'o' :: digits => do integerOf? (← baseNumber? 8 digits)
  | '0' :: 'b' :: digits => do integerOf? (← baseNumber? 2 digits)
  | _ => do
    let (minus, chars) := Decimal.splitSign word
    let magnitude := Decimal.natOfDigits (← wholeDigits? chars)
    integerOf? (if minus then -(magnitude : Int) else magnitude)

def exponentDigits? (chars : List Char) : Option (List Char) := do
  let (minus, body) := Decimal.splitSign chars
  let digits ← ungroup? Char.isDigit body
  return if minus then '-' :: digits else digits

/-- Whole digits with a fraction or without. -/
def mantissa? (chars : List Char) : Option (List Char) :=
  match splitAtMark '.' chars with
  | [whole] => wholeDigits? whole
  | [whole, fraction] => do
    return (← wholeDigits? whole) ++ '.' :: (← ungroup? Char.isDigit fraction)
  | _ => none

/-- The decimal text of an unsigned float, without underscores. -/
def floatText? (chars : List Char) : Option (List Char) :=
  match splitAtMark 'e' (chars.map fun char => if char = 'E' then 'e' else char) with
  | [digits] => if digits.contains '.' then mantissa? digits else none
  | [digits, exponent] => do
    return (← mantissa? digits) ++ 'e' :: (← exponentDigits? exponent)
  | _ => none

/-- A number with a fraction or a power of ten, or one of `inf` and `nan`. A number above
all finite doubles is refused; one below them is negative infinity. -/
def readFloat? (word : List Char) : Option Toml :=
  let (minus, body) := Decimal.splitSign word
  if body = ['i', 'n', 'f'] then some (.float (Double.infinity minus))
  else if body = ['n', 'a', 'n'] then some (.float (Double.nan minus))
  else do
    let value ← Decimal.readDecimal? minus (← floatText? body)
    if value = Double.infinity false then none else some (.float value)

/-- A number of exactly `width` digits between two bounds. -/
def boundedNumber? (width low high : Nat) (chars : List Char) : Option Nat := do
  let value ← Decimal.readNat? chars
  if chars.length = width ∧ low ≤ value ∧ value ≤ high then some value else none

def daysOf (year month : Nat) : Nat :=
  if month = 2 then
    if year % 4 = 0 ∧ (year % 100 ≠ 0 ∨ year % 400 = 0) then 29 else 28
  else if month = 4 ∨ month = 6 ∨ month = 9 ∨ month = 11 then 30
  else 31

/-- Whether a text is a date of the calendar, such as `2024-02-29`. -/
def isDate (chars : List Char) : Bool :=
  match splitAtMark '-' chars with
  | [year, month, day] => Option.isSome do
    let year ← boundedNumber? 4 0 9999 year
    let month ← boundedNumber? 2 1 12 month
    boundedNumber? 2 1 (daysOf year month) day
  | _ => false

/-- Whether a text is a number of seconds, with a fraction or without. -/
def isSeconds (chars : List Char) : Bool :=
  match splitAtMark '.' chars with
  | [whole] => (boundedNumber? 2 0 60 whole).isSome
  | [whole, fraction] =>
    (boundedNumber? 2 0 60 whole).isSome && (Decimal.readNat? fraction).isSome
  | _ => false

/-- Whether a text is a time of day, such as `23:59:60.5`. -/
def isTime (chars : List Char) : Bool :=
  match splitAtMark ':' chars with
  | [hour, minute, second] =>
    (boundedNumber? 2 0 23 hour).isSome && (boundedNumber? 2 0 59 minute).isSome
      && isSeconds second
  | _ => false

/-- Whether a text is a distance from universal time without its sign. -/
def isOffset (chars : List Char) : Bool :=
  match splitAtMark ':' chars with
  | [hour, minute] =>
    (boundedNumber? 2 0 23 hour).isSome && (boundedNumber? 2 0 59 minute).isSome
  | _ => false

/-- Whether a text is a time of day, with a distance from universal time or without. -/
def isZonedTime (chars : List Char) : Bool :=
  let time := chars.takeWhile fun char => char.isDigit || char = ':' || char = '.'
  isTime time && match chars.drop time.length with
    | [] => true
    | [mark] => mark = 'Z' || mark = 'z'
    | mark :: distance => (mark = '+' || mark = '-') && isOffset distance

/-- A date, a time of day, or both with a mark between them. -/
def readMoment? (word : List Char) : Option Toml :=
  let valid := isTime word || isDate (word.take 10) && match word.drop 10 with
    | [] => true
    | mark :: time => (mark = 'T' || mark = 't' || mark = ' ') && isZonedTime time
  if valid then some (.moment (String.ofList word)) else none

/-- Whether a character may stand in a number or a moment. -/
def isWordChar (char : Char) : Bool :=
  char.isAlphanum || char = '_' || char = '+' || char = '-' || char = '.' || char = ':'

/-- Splits off a number or a moment; a date and a time may have a space between them. -/
def splitWord (chars : List Char) : List Char × List Char :=
  let word := chars.takeWhile isWordChar
  match chars.dropWhile isWordChar with
  | ' ' :: digit :: rest =>
    if isDate word && digit.isDigit then
      (word ++ ' ' :: (digit :: rest).takeWhile isWordChar, (digit :: rest).dropWhile isWordChar)
    else (word, ' ' :: digit :: rest)
  | rest => (word, rest)

/-- A number, a moment or a flag. -/
def readWord? (word : List Char) : Option Toml :=
  if word = ['t', 'r', 'u', 'e'] then some (.flag true)
  else if word = ['f', 'a', 'l', 's', 'e'] then some (.flag false)
  else (readInteger? word).or ((readFloat? word).or (readMoment? word))

/-! ### Strings -/

/-- Whether a character may stand for itself in strings and comments. -/
def isTextChar (char : Char) : Bool :=
  char = '\t' || (0x20 ≤ char.toNat && char.toNat ≠ 0x7F)

def lineBreak? : List Char → Option (List Char)
  | '\n' :: rest => some rest
  | '\r' :: '\n' :: rest => some rest
  | _ => none

/-- The text behind spaces and tabs. -/
def skipBlanks (chars : List Char) : List Char :=
  chars.dropWhile fun char => char = ' ' || char = '\t'

/-- The character of `width` hexadecimal digits. -/
def readScalar? (width : Nat) (chars : List Char) : Option (Char × List Char) := do
  let digits := chars.take width
  let value ← baseNumber? 16 digits
  if digits.length = width ∧ !digits.contains '_' ∧ Nat.isValidChar value then
    return (Char.ofNat value, chars.drop width)
  else none

/-- The character that an escape stands for, read behind its backslash. -/
def readEscape? : List Char → Option (Char × List Char)
  | 'u' :: rest => readScalar? 4 rest
  | 'U' :: rest => readScalar? 8 rest
  | letter :: rest =>
    if letter = '/' then none else (Json.escapeValue? letter).map fun char => (char, rest)
  | [] => none

/-- The characters of a string on one line up to its closing quote, `seen` in reverse
first; a backslash is itself between single quotes. -/
def readLine? (quote : Char) : (fuel : Nat) → (seen : List Char) → List Char →
    Option (String × List Char)
  | 0, _, _ => none
  | fuel + 1, seen, chars =>
    match chars with
    | [] => none
    | char :: rest =>
      if char = quote then some (String.ofList seen.reverse, rest)
      else if char = '\\' ∧ quote = '"' then do
        let (escaped, rest) ← readEscape? rest
        readLine? quote fuel (escaped :: seen) rest
      else if isTextChar char then readLine? quote fuel (char :: seen) rest
      else none

/-- The text behind blanks and line breaks; `fuel` bounds the lines. -/
def skipBlankLines : (fuel : Nat) → List Char → List Char
  | 0, chars => chars
  | fuel + 1, chars =>
    let rest := skipBlanks chars
    match lineBreak? rest with
    | some rest => skipBlankLines fuel rest
    | none => rest

/-- The text behind a line break that a backslash takes back, and behind all blanks and
line breaks that follow. -/
def skipJoin? (chars : List Char) : Option (List Char) :=
  (lineBreak? (skipBlanks chars)).map fun rest => skipBlankLines (rest.length + 1) rest

/-- The characters of a string on several lines up to its closing quotes, `seen` in
reverse first. Up to two quotes before the closing ones belong to the string. -/
def readLines? (quote : Char) : (fuel : Nat) → (seen : List Char) → List Char →
    Option (String × List Char)
  | 0, _, _ => none
  | fuel + 1, seen, chars =>
    match chars with
    | [] => none
    | char :: rest =>
      if char = quote then
        let run := min 5 (chars.takeWhile (· = quote)).length
        if 3 ≤ run then
          some (String.ofList (List.replicate (run - 3) quote ++ seen).reverse, chars.drop run)
        else readLines? quote fuel (char :: seen) rest
      else if char = '\\' ∧ quote = '"' then
        match skipJoin? rest with
        | some rest => readLines? quote fuel seen rest
        | none => do
          let (escaped, rest) ← readEscape? rest
          readLines? quote fuel (escaped :: seen) rest
      else
        match lineBreak? chars with
        | some rest => readLines? quote fuel ('\n' :: seen) rest
        | none => if isTextChar char then readLines? quote fuel (char :: seen) rest else none

def readQuoted? (quote : Char) (chars : List Char) : Option (String × List Char) :=
  match chars with
  | second :: third :: rest =>
    if second = quote ∧ third = quote then
      readLines? quote (rest.length + 1) [] ((lineBreak? rest).getD rest)
    else readLine? quote (chars.length + 1) [] chars
  | _ => readLine? quote (chars.length + 1) [] chars

end GraphStore.Toml
