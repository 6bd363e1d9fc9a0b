import GraphStore.Toml.Scalar
import GraphStore.Toml.Tables

/-!
Contract: settings files read from text.

Owns the grammar of values, keys, statements and headers. Every statement and every
header takes up a line of its own; comments run to the end of the line. Lists and braces
nest less than eighty deep, and a dotted key has fewer than eighty parts.
-/

namespace GraphStore.Toml

/-- The text behind a comment, which starts with `#`. -/
def skipComment (chars : List Char) : List Char :=
  match chars with
  | '#' :: rest => rest.dropWhile isTextChar
  | _ => chars

/-- The text behind blanks, comments and line breaks; `fuel` bounds the lines. -/
def skipLines : (fuel : Nat) → List Char → List Char
  | 0, chars => chars
  | fuel + 1, chars =>
    let rest := skipComment (skipBlanks chars)
    match lineBreak? rest with
    | some rest => skipLines fuel rest
    | none => rest

/-- The text behind blanks, comments and line breaks. -/
def skipSpace (chars : List Char) : List Char := skipLines (chars.length + 1) chars

/-- Whether a character may stand in a key without quotes. -/
def isKeyChar (char : Char) : Bool := char.isAlphanum || char = '_' || char = '-'

def readKey? (chars : List Char) : Option (String × List Char) :=
  match chars with
  | '"' :: rest => readLine? '"' (rest.length + 1) [] rest
  | '\'' :: rest => readLine? '\'' (rest.length + 1) [] rest
  | _ =>
    let name := chars.takeWhile isKeyChar
    if name.isEmpty then none else some (String.ofList name, chars.dropWhile isKeyChar)

/-- Values nest less deep than this, and dotted keys have fewer parts. -/
def nestingLimit : Nat := 80

/-- The parts of a dotted key; blanks may surround the dots. -/
def readParts? : (fuel : Nat) → List Char → Option (List String × List Char)
  | 0, _ => none
  | fuel + 1, chars => do
    let (name, rest) ← readKey? (skipBlanks chars)
    match skipBlanks rest with
    | '.' :: rest =>
      let (names, rest) ← readParts? fuel rest
      return (name :: names, rest)
    | rest => return ([name], rest)

def readPath? (chars : List Char) : Option (List String × List Char) := do
  let (path, rest) ← readParts? (chars.length + 1) chars
  if path.length < nestingLimit then return (path, rest) else none

mutual

/-- A value at the front of a text, in which lists and braces nest at most `depth` deep. -/
def readValue? : (fuel depth : Nat) → List Char → Option (Toml × List Char)
  | 0, _, _ => none
  | fuel + 1, depth, chars =>
    match depth, chars with
    | _, '"' :: rest => (readQuoted? '"' rest).map fun found => (.text found.1, found.2)
    | _, '\'' :: rest => (readQuoted? '\'' rest).map fun found => (.text found.1, found.2)
    | 0, '[' :: _ => none
    | depth + 1, '[' :: rest =>
      (readItems? fuel depth rest).map fun found => (.list found.1, found.2)
    | 0, '\x7b' :: _ => none
    | depth + 1, '\x7b' :: rest =>
      match skipBlanks rest with
      | '\x7d' :: rest => some (.table [], rest)
      | rest => do
        let (assignments, rest) ← readFields? fuel depth rest
        return (← assembleInline? assignments, rest)
    | _, _ =>
      let (word, rest) := splitWord chars
      (readWord? word).map fun value => (value, rest)

/-- The items of a list up to its closing bracket. -/
def readItems? : (fuel depth : Nat) → List Char → Option (List Toml × List Char)
  | 0, _, _ => none
  | fuel + 1, depth, chars =>
    match skipSpace chars with
    | ']' :: rest => some ([], rest)
    | chars => do
      let (item, rest) ← readValue? fuel depth chars
      match skipSpace rest with
      | ']' :: rest => return ([item], rest)
      | ',' :: rest =>
        let (items, rest) ← readItems? fuel depth rest
        return (item :: items, rest)
      | _ => none

/-- A key, an equals sign and a value. -/
def readAssignment? : (fuel depth : Nat) → List Char → Option (Assignment × List Char)
  | 0, _, _ => none
  | fuel + 1, depth, chars => do
    let (path, rest) ← readPath? chars
    match rest with
    | '=' :: rest =>
      let (value, rest) ← readValue? fuel depth (skipBlanks rest)
      return ((path, value), rest)
    | _ => none

/-- At least one statement in braces and the closing brace. -/
def readFields? : (fuel depth : Nat) → List Char → Option (List Assignment × List Char)
  | 0, _, _ => none
  | fuel + 1, depth, chars => do
    let (assignment, rest) ← readAssignment? fuel depth chars
    match skipBlanks rest with
    | '\x7d' :: rest => return ([assignment], rest)
    | ',' :: rest =>
      let (assignments, rest) ← readFields? fuel depth rest
      return (assignment :: assignments, rest)
    | _ => none

end

def endLine? (chars : List Char) : Option (List Char) :=
  match skipComment (skipBlanks chars) with
  | [] => some []
  | rest => lineBreak? rest

/-- The statements up to the next header or the end. -/
def readStatements? : (fuel : Nat) → List Char → Option (List Assignment × List Char)
  | 0, _ => none
  | fuel + 1, chars =>
    match skipSpace chars with
    | [] => some ([], [])
    | '[' :: rest => some ([], '[' :: rest)
    | chars => do
      let (assignment, rest) ← readAssignment? (chars.length + 1) (nestingLimit - 1) chars
      let (assignments, rest) ← readStatements? fuel (← endLine? rest)
      return (assignment :: assignments, rest)

/-- A header, read behind its first bracket: its path, whether it adds to a list, and
the text behind its line. -/
def readHeader? (chars : List Char) : Option (List String × Bool × List Char) :=
  match chars with
  | '[' :: chars => do
    match ← readPath? chars with
    | (path, ']' :: ']' :: rest) => return (path, true, ← endLine? rest)
    | _ => none
  | _ => do
    match ← readPath? chars with
    | (path, ']' :: rest) => return (path, false, ← endLine? rest)
    | _ => none

def readSections? : (fuel : Nat) → List Char → Option (List Section)
  | 0, _ => none
  | fuel + 1, chars =>
    match chars with
    | [] => some []
    | '[' :: rest => do
      let (path, isItem, rest) ← readHeader? rest
      let (assignments, rest) ← readStatements? (rest.length + 1) rest
      return ⟨path, isItem, assignments⟩ :: (← readSections? fuel rest)
    | _ => none

/-- The fields of the settings file that takes up a whole text. -/
def read? (text : String) : Option (List (String × Toml)) := do
  let chars := match text.toList with
    | '\ufeff' :: chars => chars
    | chars => chars
  let (top, rest) ← readStatements? (chars.length + 1) chars
  assemble? top (← readSections? (rest.length + 1) rest)

end GraphStore.Toml
