import GraphStore.Log.File
import GraphStore.Log.Record

/-!
Contract: appending to a log.

Owns the writer and the repair of failed appends. The writer's `length` is the end of
the last acknowledged record. A failed append cuts the file back to it; when that fails
too, the writer is poisoned and refuses further appends.

Sequence numbers are 64-bit words. The length and the count of appended records have no bound here,
where a machine keeps them in such words as well: no file has `2 ^ 64` bytes, and each record takes
up some of them. The count is reported and decides nothing.
-/

namespace GraphStore

/-- The append side of a log. -/
structure LogWriter where
  file : LogFile
  length : Nat
  nextSequence : UInt64
  syncWrites : Bool
  appended : Nat
  poisoned : Bool
deriving DecidableEq, Repr

namespace LogWriter

def new (file : LogFile) (length : Nat) (records : Nat) (syncWrites : Bool) : LogWriter :=
  ⟨file, length, UInt64.ofNat records, syncWrites, 0, false⟩

def onFile {α : Type} (step : Action LogFile α) : Action LogWriter α :=
  step.within LogWriter.file fun writer file => { writer with file := file }

/-- Writes a frame and forces it to the device if every record is to be forced. -/
def writeFrame (frame : Bytes) : Action LogWriter Unit := do
  onFile (LogFile.write frame)
  if (← get).syncWrites then
    onFile LogFile.sync

/-- Cuts the file back to the last acknowledged record, or poisons the writer. -/
def cutBack (writer : LogWriter) : LogWriter :=
  let repair : Action LogWriter Unit := do
    onFile (LogFile.setLength writer.length)
    onFile (LogFile.seek writer.length)
  match repair writer with
  | (.ok (), writer) => writer
  | (.error _, writer) => { writer with poisoned := true }

def refusal (store : String) : StoreError := .persistence store (.io .poisonedLog)

def append (change : RowChange) : Action LogWriter Unit := fun writer =>
  if writer.poisoned then (.error (refusal change.store), writer)
  else
    match Log.encodeFrame writer.nextSequence change with
    | .error failure => (.error failure, writer)
    | .ok frame =>
      match writeFrame frame writer with
      | (.error failure, writer) => (.error failure, writer.cutBack)
      | (.ok (), writer) =>
        (.ok (), { writer with
          length := writer.length + frame.length
          nextSequence := writer.nextSequence + 1
          appended := writer.appended + 1 })

/-- Empties the log. The writer starts anew only when all file steps have succeeded. -/
def truncate : Action LogWriter Unit := do
  onFile (LogFile.setLength 0)
  onFile (LogFile.seek 0)
  onFile LogFile.sync
  modify fun writer => { writer with length := 0, nextSequence := 0, poisoned := false }

end LogWriter

end GraphStore
