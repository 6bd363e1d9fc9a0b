import GraphStore.Action

/-!
Contract: the file under a log, as a sequence of bytes and a write position.

Owns the file steps and how they fail. A write that fails may leave any number of its
first bytes behind; a failed change of length, a failed seek and a failed sync leave
the bytes as they are. Which steps fail is part of the file: a script of outcomes that
the steps use up one by one, a size that the file cannot exceed, and whether it can
become shorter.
-/

namespace GraphStore

/-- How a file step turns out, as far as the device decides. -/
inductive StepOutcome where
  | succeeds
  | fails (written : Nat)
deriving DecidableEq, Repr

/-- A file open for reading and writing. -/
structure LogFile where
  bytes : Bytes
  position : Nat
  script : List StepOutcome
  sizeLimit : Option Nat
  shrinkable : Bool
deriving DecidableEq, Repr

namespace LogFile

/-- A file with the given content, with its position at the front and nothing to fail. -/
def ofBytes (bytes : Bytes) : LogFile := ⟨bytes, 0, [], none, true⟩

/-- An empty file on the same device. -/
def sibling (file : LogFile) : LogFile :=
  { file with bytes := [], position := 0, shrinkable := true }

def failure : StoreError := .io .device

/-- The content with `data` at `position` instead of what was there; a gap before the
position is filled with zeros. -/
def overwrite (bytes : Bytes) (position : Nat) (data : Bytes) : Bytes :=
  if data = [] then bytes
  else
    bytes.take position ++ Bytes.zeros (position - bytes.length) ++ data
      ++ bytes.drop (position + data.length)

/-- The file after writing `data` at its position. -/
def written (file : LogFile) (data : Bytes) : LogFile :=
  { file with
    bytes := overwrite file.bytes file.position data
    position := file.position + data.length }

/-- How many of `count` bytes fit at the position. -/
def room (file : LogFile) (count : Nat) : Nat :=
  match file.sizeLimit with
  | some limit => min count (limit - file.position)
  | none => count

/-- Takes the next outcome from the script; behind its end every step succeeds. -/
def nextOutcome (file : LogFile) : StepOutcome × LogFile :=
  match file.script with
  | [] => (.succeeds, file)
  | outcome :: script => (outcome, { file with script := script })

/-- A step without effect on the content that may still fail. -/
def attempt : Action LogFile Unit := fun file =>
  match file.nextOutcome with
  | (.succeeds, file) => (.ok (), file)
  | (.fails _, file) => (.error failure, file)

/-- Forces the content to the device. -/
def sync : Action LogFile Unit := attempt

/-- Writes all of `data` at the position, or a first part of it and fails. -/
def write (data : Bytes) : Action LogFile Unit := fun file =>
  match file.nextOutcome with
  | (.succeeds, file) =>
    let fitting := file.room data.length
    if fitting < data.length then (.error failure, file.written (data.take fitting))
    else (.ok (), file.written data)
  | (.fails count, file) =>
    (.error failure, file.written (data.take (min count (file.room data.length))))

/-- Whether the device lets the content take the given length. -/
def canResize (file : LogFile) (length : Nat) : Bool :=
  if length < file.bytes.length then file.shrinkable
  else if file.bytes.length < length then
    match file.sizeLimit with
    | some limit => length ≤ limit
    | none => true
  else true

/-- Cuts the content to `length` bytes or fills it up with zeros. -/
def setLength (length : Nat) : Action LogFile Unit := fun file =>
  match file.nextOutcome with
  | (.succeeds, file) =>
    if file.canResize length then
      (.ok (), { file with
        bytes := file.bytes.take length ++ Bytes.zeros (length - file.bytes.length) })
    else (.error failure, file)
  | (.fails _, file) => (.error failure, file)

def seek (position : Nat) : Action LogFile Unit := do
  attempt
  modify fun file => { file with position := position }

end LogFile

end GraphStore
