import GraphStore.Error
import GraphStore.Text.Classes

/-!
Contract: replacing key references in the text of a query.

Owns the search for references and their replacement. A reference is a stem followed
by a word or by a quoted name. What stands between references is kept, and inserted
text is not searched again. Positions in messages count bytes of the query.
-/

namespace GraphStore.Substitution

/-- The number of bytes that a text takes up. -/
def byteCount (chars : List Char) : Nat := chars.foldr (fun char total => char.utf8Size + total) 0

/-- The text before and behind the first occurrence of a stem. -/
def splitAtFirst (stem : List Char) : List Char → Option (List Char × List Char)
  | [] => if stem.isEmpty then some ([], []) else none
  | char :: rest =>
    if stem.isPrefixOf (char :: rest) then some ([], (char :: rest).drop stem.length)
    else (splitAtFirst stem rest).map fun parts => (char :: parts.1, parts.2)

/-- What lies behind an occurrence is no longer than the text. -/
theorem length_behind_le {stem text : List Char} {parts : List Char × List Char}
    (split : splitAtFirst stem text = some parts) : parts.2.length ≤ text.length := by
  induction text generalizing parts with
  | nil =>
      rw [splitAtFirst] at split
      split at split
      · cases split
        simp
      · cases split
  | cons char rest inductionHypothesis =>
      rw [splitAtFirst] at split
      split at split
      · cases split
        simp
      · obtain ⟨inner, found, rfl⟩ := Option.map_eq_some_iff.mp split
        have := inductionHypothesis found
        simp only [List.length_cons]
        omega

/-- Letters, digits and underscores make up words. -/
def isWordChar (char : Char) : Bool := Text.isAlphanumeric char || char = '_'

def readName (position : Nat) (text : List Char) : Result (List Char × List Char) :=
  match text with
  | '"' :: quoted =>
    match quoted.dropWhile (· ≠ '"') with
    | _ :: rest => .ok (quoted.takeWhile (· ≠ '"'), rest)
    | [] => .error (.invalidArgument (.unclosedQuote position))
  | _ => .ok (text.takeWhile isWordChar, text.dropWhile isWordChar)

/-- A name that is not blank, and the text behind it. -/
def readReference (position : Nat) (text : List Char) : Result (List Char × List Char) := do
  let (name, rest) ← readName position text
  if name.all Text.isBlank then
    throw (.invalidArgument (.emptyReference position))
  return (name, rest)

/-- The text behind a name is no longer than with the name. -/
theorem length_rest_add_name_le {position : Nat} {text name rest : List Char}
    (read : readName position text = .ok (name, rest)) :
    rest.length + name.length ≤ text.length := by
  have parts (keep : Char → Bool) (whole : List Char) :
      (whole.dropWhile keep).length + (whole.takeWhile keep).length = whole.length := by
    have joined := congrArg List.length (List.takeWhile_append_dropWhile (p := keep) (l := whole))
    rw [List.length_append] at joined
    omega
  unfold readName at read
  split at read
  · rename_i quoted
    have quotedParts := parts (· ≠ '"') quoted
    split at read
    · rename_i remaining found
      cases read
      rw [found] at quotedParts
      simp only [List.length_cons] at *
      omega
    · cases read
  · cases read
    exact Nat.le_of_eq (parts isWordChar text)

/-- A reference takes up at least one character. -/
theorem length_rest_lt {position : Nat} {text name rest : List Char}
    (read : readReference position text = .ok (name, rest)) : rest.length < text.length := by
  unfold readReference at read
  cases named : readName position text with
  | error failure =>
      rw [named] at read
      cases read
  | ok parts =>
      obtain ⟨found, behind⟩ := parts
      rw [named] at read
      have bound := length_rest_add_name_le named
      cases found with
      | nil => simp [bind, Except.bind, throw, throwThe, MonadExceptOf.throw] at read
      | cons first others =>
          simp only [bind, Except.bind] at read
          split at read
          · cases read
          · cases read
            simp only [List.length_cons] at bound
            omega

/-- The text with its references replaced; `offset` bytes lie before it. -/
def replaceFrom (stem : List Char) (replacement : String → String) (offset : Nat)
    (text : List Char) : Result (List Char) :=
  match _split : splitAtFirst stem text with
  | none => .ok text
  | some (before, behind) =>
    let position := offset + byteCount before
    match _read : readReference position behind with
    | .error failure => .error failure
    | .ok (name, rest) =>
      let consumed := byteCount text - byteCount rest
      match replaceFrom stem replacement (offset + consumed) rest with
      | .error failure => .error failure
      | .ok replaced =>
        .ok (before ++ (replacement (String.ofList name)).toList ++ replaced)
termination_by text.length
decreasing_by
  have behindBound := length_behind_le _split
  have restBound := length_rest_lt _read
  simp only at behindBound
  omega

/-- The query with every reference replaced by the field that `resolve?` gives for its
name, or by `unknown` where it gives none. -/
def substituteKeys (query stem : String) (resolve? : String → Option String)
    (unknown : String) : Result String := do
  let replaced ← replaceFrom stem.toList (fun name => (resolve? name).getD unknown) 0 query.toList
  return String.ofList replaced

end GraphStore.Substitution
