import GraphStore.Json.Number

/-!
Contract: JSON documents read from text.

Owns the grammar of documents but for that of numbers. Of several fields of one name the
last counts.
-/

namespace GraphStore.Json

/-- Drops the white space between tokens. -/
def skipSpace (chars : List Char) : List Char :=
  chars.dropWhile fun char => char = ' ' || char = '\t' || char = '\n' || char = '\r'

def hexValue? (char : Char) : Option Nat :=
  if '0' ≤ char ∧ char ≤ '9' then some (char.toNat - '0'.toNat)
  else if 'a' ≤ char ∧ char ≤ 'f' then some (char.toNat - 'a'.toNat + 10)
  else if 'A' ≤ char ∧ char ≤ 'F' then some (char.toNat - 'A'.toNat + 10)
  else none

/-- Four hexadecimal digits. -/
def readUnit? : List Char → Option (Nat × List Char)
  | a :: b :: c :: d :: rest => do
    let a ← hexValue? a
    let b ← hexValue? b
    let c ← hexValue? c
    let d ← hexValue? d
    return (((a * 16 + b) * 16 + c) * 16 + d, rest)
  | _ => none

/-- The character behind `\u`: one unit, or two that form a pair. -/
def readCodePoint? (chars : List Char) : Option (Char × List Char) := do
  let (high, rest) ← readUnit? chars
  if 0xD800 ≤ high ∧ high < 0xDC00 then
    match rest with
    | '\\' :: 'u' :: more =>
      let (low, rest) ← readUnit? more
      if 0xDC00 ≤ low ∧ low < 0xE000 then
        return (Char.ofNat (0x10000 + (high - 0xD800) * 0x400 + (low - 0xDC00)), rest)
      else none
    | _ => none
  else if 0xDC00 ≤ high ∧ high < 0xE000 then none
  else return (Char.ofNat high, rest)

/-- The character that a backslash and a letter stand for. -/
def escapeValue? (letter : Char) : Option Char :=
  if letter = '"' ∨ letter = '\\' ∨ letter = '/' then some letter
  else if letter = 'b' then some '\x08'
  else if letter = 'f' then some '\x0c'
  else if letter = 'n' then some '\n'
  else if letter = 'r' then some '\r'
  else if letter = 't' then some '\t'
  else none

/-- The characters of a string up to its closing quote, `seen` in reverse first. -/
def readString? : (fuel : Nat) → (seen : List Char) → List Char → Option (String × List Char)
  | 0, _, _ => none
  | fuel + 1, seen, chars =>
    match chars with
    | [] => none
    | '"' :: rest => some (String.ofList seen.reverse, rest)
    | '\\' :: 'u' :: rest => do
      let (char, rest) ← readCodePoint? rest
      readString? fuel (char :: seen) rest
    | '\\' :: letter :: rest => do
      let char ← escapeValue? letter
      readString? fuel (char :: seen) rest
    | char :: rest => if char.toNat < 0x20 then none else readString? fuel (char :: seen) rest

/-- Whether a character may stand in a number. -/
def isNumberChar (char : Char) : Bool :=
  char.isDigit || char = '-' || char = '+' || char = '.' || char = 'e' || char = 'E'

/-- Splits off a word, if it stands at the front. -/
def readWord? (word : String) (chars : List Char) : Option (List Char) :=
  if word.toList.isPrefixOf chars then some (chars.drop word.length) else none

mutual

/-- A document at the front of a text without leading space. -/
def readValue? : (fuel : Nat) → List Char → Option (Json × List Char)
  | 0, _ => none
  | fuel + 1, chars =>
    match chars with
    | '"' :: rest => (readString? (rest.length + 1) [] rest).map fun found =>
        (.str found.1, found.2)
    | '[' :: rest =>
      match skipSpace rest with
      | ']' :: rest => some (.arr [], rest)
      | rest => (readItems? fuel rest).map fun found => (.arr found.1, found.2)
    | '\x7b' :: rest =>
      match skipSpace rest with
      | '\x7d' :: rest => some (.obj [], rest)
      | rest => (readFields? fuel rest).map fun found => (object found.1, found.2)
    | 't' :: _ => (readWord? "true" chars).map fun rest => (.bool true, rest)
    | 'f' :: _ => (readWord? "false" chars).map fun rest => (.bool false, rest)
    | 'n' :: _ => (readWord? "null" chars).map fun rest => (.null, rest)
    | _ => (numberOf? (chars.takeWhile isNumberChar)).map fun number =>
        (number, chars.dropWhile isNumberChar)

def readItems? : (fuel : Nat) → List Char → Option (List Json × List Char)
  | 0, _ => none
  | fuel + 1, chars => do
    let (item, rest) ← readValue? fuel chars
    match skipSpace rest with
    | ']' :: rest => return ([item], rest)
    | ',' :: rest =>
      let (items, rest) ← readItems? fuel (skipSpace rest)
      return (item :: items, rest)
    | _ => none

/-- At least one named field and the closing brace. -/
def readFields? : (fuel : Nat) → List Char → Option (List (String × Json) × List Char)
  | 0, _ => none
  | fuel + 1, chars =>
    match chars with
    | '"' :: rest => do
      let (name, rest) ← readString? (rest.length + 1) [] rest
      match skipSpace rest with
      | ':' :: rest =>
        let (value, rest) ← readValue? fuel (skipSpace rest)
        match skipSpace rest with
        | '\x7d' :: rest => return ([(name, value)], rest)
        | ',' :: rest =>
          let (fields, rest) ← readFields? fuel (skipSpace rest)
          return ((name, value) :: fields, rest)
        | _ => none
      | _ => none
    | _ => none

end

/-- The document that takes up a whole text. -/
def read? (text : String) : Option Json :=
  let chars := skipSpace text.toList
  match readValue? (chars.length + 1) chars with
  | some (document, rest) => if skipSpace rest = [] then some document else none
  | none => none

end GraphStore.Json
