import GraphStore.Log.Writer
import GraphStore.Manager.Generations

/-!
Contract: the backend that keeps every store in memory and logs every change first.

Owns opening with replay, the operations of the manager, and compaction. A row change
reaches the tables only after its record has been acknowledged by the log. Replay that
finds damage cuts the file back to the last good record, so that later records extend a
valid log.

Compaction writes one record per live row into a new file, which then replaces the log.
Should the last step fail, the writer still holds the replaced file while the log's
place holds the new one; `replacement` is that new file.
-/

namespace GraphStore

structure Embedded where
  stores : Generations
  writer : LogWriter
  closed : Bool
  found : Log.ReplayStats
  replacement : Option LogFile
deriving DecidableEq

namespace Embedded

/-- Replays a log file and opens the backend over it. -/
def openLog (syncWrites : Bool) : Action LogFile Embedded := do
  let (tables, found) := Log.replay (← get).bytes
  if 0 < found.discarded then
    LogFile.setLength found.validLength
    LogFile.sync
  LogFile.seek found.validLength
  let writer := LogWriter.new (← get) found.validLength found.records syncWrites
  return ⟨.ofTables tables, writer, false, found, none⟩

def logFile (embedded : Embedded) : LogFile :=
  embedded.replacement.getD embedded.writer.file

/-- The backend with another file at the log's place. -/
def withLogFile (embedded : Embedded) (file : LogFile) : Embedded :=
  match embedded.replacement with
  | some _ => { embedded with replacement := some file }
  | none => { embedded with writer := { embedded.writer with file := file } }

def ensureOpen : Action Embedded Unit := fun embedded =>
  if embedded.closed then (.error (.closed .embeddedManager), embedded) else (.ok (), embedded)

def onWriter {α : Type} (step : Action LogWriter α) : Action Embedded α :=
  step.within Embedded.writer fun embedded writer => { embedded with writer := writer }

def modifyStores (change : Generations → Generations) : Action Embedded Unit :=
  modify fun embedded => { embedded with stores := change embedded.stores }

/-- Logs a row change and then applies it. -/
def writeRow (store : StoreRef) (key : Bytes) (additions : List Entry)
    (deletions : List Bytes) : Action Embedded Unit := do
  onWriter (LogWriter.append ⟨store.name, key, additions, deletions⟩)
  modifyStores fun stores => stores.change store key additions deletions

def openStore (name : String) : Action Embedded StoreRef := do
  ensureOpen
  return (← get).stores.refer name

def getSlice (store : StoreRef) (key : Bytes) (slice : Slice) :
    Action Embedded (List Entry) := do
  ensureOpen
  return Table.slice ((← get).stores.table store) key slice

def mutate (store : StoreRef) (key : Bytes) (additions : List Entry) (deletions : List Bytes) :
    Action Embedded Unit := do
  ensureOpen
  writeRow store key additions deletions

def startScan (_store : StoreRef) : Action Embedded Unit := ensureOpen

def scanPage (store : StoreRef) (range : KeyRange) (slice : Slice) : PageSource Embedded :=
  fun after size => do
    ensureOpen
    return Table.page ((← get).stores.table store) range slice after size

def compareAndSwap (store : StoreRef) (key column : Bytes) (expected : Option Bytes)
    (new : Bytes) : Action Embedded Bool := do
  ensureOpen
  if Table.cell? ((← get).stores.table store) key column = expected then
    writeRow store key [⟨column, new⟩] []
    return true
  else return false

/-- Logs and applies changes of rows of one store in key order, up to the first failure. -/
def writeRows (store : StoreRef) : List (Bytes × Mutation) → Action Embedded Unit
  | [] => return ()
  | (key, mutation) :: rows => do
    writeRow store key mutation.addedEntries mutation.deletedColumns
    writeRows store rows

/-- Changes the rows of each store in name order, up to the first failure. -/
def mutateStores : List (String × OrderedMap Bytes Mutation) → Action Embedded Unit
  | [] => return ()
  | (name, rows) :: stores => do
    Action.mapError (.persistence name) do
      let store ← openStore name
      writeRows store rows.entries
    mutateStores stores

/-- Closes the manager; only the first call reaches the file. -/
def close : Action Embedded Unit := do
  let embedded ← get
  if embedded.closed then return ()
  set { embedded with closed := true }
  onWriter (LogWriter.onFile LogFile.sync)

def clearStorage : Action Embedded Unit := do
  onWriter LogWriter.truncate
  modifyStores Generations.clear

/-! ### Compaction -/

/-- One row change per live row, stores in name order and rows in key order. -/
def liveRows (tables : Tables) : List RowChange :=
  tables.entries.flatMap fun store =>
    store.2.entries.map fun row => ⟨store.1, row.1, Row.toEntries row.2, []⟩

/-- Writes the frames of row changes, numbered from `sequence` on; answers their length. -/
def writeFrames (sequence : UInt64) : List RowChange → Action LogFile Nat
  | [] => return 0
  | change :: changes => do
    let frame ← Action.ofResult (Log.encodeFrame sequence change)
    LogFile.write frame
    let length ← writeFrames (sequence + 1) changes
    return frame.length + length

/-- Creates the new file and writes the snapshot into it; answers its length. -/
def writeSnapshot (changes : List RowChange) : Action LogFile Nat := do
  LogFile.attempt
  let length ← writeFrames 0 changes
  LogFile.sync
  return length

/-- The backend whose writer's device has used up its script as far as the given file's. -/
def keepScript (embedded : Embedded) (used : LogFile) : Embedded :=
  { embedded with
    writer := { embedded.writer with file := { embedded.writer.file with script := used.script } } }

/-- Replaces the log by a snapshot of the live rows; answers the number of its records. -/
def compact : Action Embedded Nat := do
  ensureOpen
  fun embedded =>
    let changes := liveRows embedded.stores.current
    match writeSnapshot changes embedded.writer.file.sibling with
    | (.error failure, file) => (.error failure, embedded.keepScript file)
    | (.ok length, file) =>
      match LogFile.attempt file with
      | (.error failure, file) => (.error failure, embedded.keepScript file)
      | (.ok (), file) =>
        match LogFile.seek length file with
        | (.error failure, file) =>
          (.error failure, { embedded.keepScript file with replacement := some file })
        | (.ok (), file) =>
          let writer := { embedded.writer with
            file := file
            length := length
            nextSequence := UInt64.ofNat changes.length
            poisoned := false }
          (.ok changes.length, { embedded with writer := writer, replacement := none })

def features : Features where
  orderedKeys := true
  ttl := false
  multiRowTransactions := false
  batchMutation := true
  conditionalWrites := true
  persistent := true

def manager : Manager Embedded where
  name := "embedded"
  features := features
  openStore := openStore
  getSlice := getSlice
  mutate := mutate
  startScan := startScan
  scanPage := scanPage
  compareAndSwap := compareAndSwap
  mutateMany mutations := mutateStores mutations.entries
  close := close
  clearStorage := clearStorage
  rowCount store embedded := (embedded.stores.table store).size

end Embedded

end GraphStore
