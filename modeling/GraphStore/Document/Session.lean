import GraphStore.Document.Row
import GraphStore.Document.Scan
import GraphStore.Ids.Authority
import GraphStore.Ids.Block
import GraphStore.Index.Schema
import GraphStore.Json.Basic
import GraphStore.Options.Storage
import GraphStore.Session.Indexes
import GraphStore.Session.LogAccess
import GraphStore.Session.Transactions

/-!
Contract: what goes into and comes out of a session as documents.

Owns the forms of settings, where fields that are left out keep their usual values, of planned
disturbances, of log edits and batches, of identifier blocks and their sizers, and the reports on
transactions, caches, logs and scans.
-/

namespace GraphStore

/-! ### Settings -/

def IdAuthorityOptions.ofDocument? (document : Json) : Option IdAuthorityOptions := do
  let usual := IdAuthorityOptions.standard
  match ← document.record? ["store_name", "initial_backoff_ms", "max_backoff_ms"] with
  | [storeName, initial, greatest] =>
    some ⟨← Json.fieldOr? usual.storeName Json.asString? storeName,
      ← Json.fieldOr? usual.initialBackoffMillis Json.asUInt64? initial,
      ← Json.fieldOr? usual.maxBackoffMillis Json.asUInt64? greatest⟩
  | _ => none

def IndexOptions.ofDocument? (document : Json) : Option IndexOptions := do
  let usual := IndexOptions.standard
  match ← document.record? ["unknown_key_name", "index_store", "edge_store"] with
  | [unknownKeyName, indexStore, edgeStore] =>
    some ⟨← Json.fieldOr? usual.unknownKeyName Json.asString? unknownKeyName,
      ← Json.fieldOr? usual.indexStore Json.asString? indexStore,
      ← Json.fieldOr? usual.edgeStore Json.asString? edgeStore⟩
  | _ => none

namespace Document

def asInterposerOptions (document : Json) : Reading InterposerOptions := do
  return {
    batchMutation := ← get? document "batch_mutation" asBool
    conditionalWrites := ← get? document "conditional_writes" asBool
    rowByRow := ← getFlag document "default_mutate_many" }

def asIndexOptions (document : Json) : Reading IndexOptions :=
  accept (IndexOptions.ofDocument? document)

def asIdAuthorityOptions (document : Json) : Reading IdAuthorityOptions :=
  accept (IdAuthorityOptions.ofDocument? document)

def asSessionSettings (document : Json) : Reading SessionSettings := do
  let usual := StorageOptions.standard
  return {
    cacheCapacity := ← getOr document "cache_capacity" usual.cacheCapacity asNat
    bufferSize := ← getOr document "buffer_size" usual.bufferSize asNat
    indexOptions := ← getOr document "index_options" IndexOptions.standard asIndexOptions
    interposition := ← get? document "wrap" asInterposerOptions }

/-- A schema without definitions, and the elements that it reserves. -/
def asReservingSchema (document : Json) : Reading Schema := do
  match ← getList document "reserved" asUInt64 with
  | [start, stop] => return Schema.empty.withReserved start stop
  | _ => return Schema.empty

def asLogFile (document : Json) : Reading LogFile := do
  let bytes ← getOr document "log" [] asHex
  return { LogFile.ofBytes bytes with
    shrinkable := !(← getFlag document "log_cannot_shrink") }

/-! ### Disturbances -/

/-- A failure, or the word for a lost conditional write. -/
def asDisturbance : Json → Reading Disturbance
  | .str _ => .ok .lostSwap
  | document => .failure <$> asFailure document

def asPlannedFault (document : Json) : Reading PlannedFault := do
  return {
    call := ← need "call" (CallKind.ofLabel? (← getStr document "call"))
    store := ← get? document "store" asStr
    skip := ← getOr document "skip" 0 asNat
    times := ← getOr document "times" 1 asNat
    effect := ← get document "error" asDisturbance }

def asPlannedRace (document : Json) : Reading PlannedRace := do
  return {
    store := ← getStr document "store"
    key := ← getOr document "key" [] asHex
    additions := ← getEntries document "add"
    deletions := ← getList document "del" asHex
    clearsCache := ← getFlag document "clear" }

def callCounts (counts : List (CallKind × Nat)) : Json :=
  .obj (counts.map fun count => (count.1.label, nat count.2))

/-! ### Logs -/

def asLogEdit (document : Json) : Reading LogEdit := do
  let place ← get? document "at" asInt
  let bits ← getOr document "xor" 0 asNat
  return {
    keep := ← get? document "keep" asNat
    flip := place.map fun place => (place, UInt8.ofNat bits)
    append := ← getOr document "append" [] asHex }

/-- What replay found, and what has been appended since. -/
def logStats (embedded : Embedded) : Json :=
  .obj [("records", nat embedded.found.records), ("valid_len", nat embedded.found.validLength),
    ("discarded", nat embedded.found.discarded), ("appended", nat embedded.writer.appended),
    ("file", .str "kcv.log")]

/-! ### Rows, caches and transactions -/

def asStagedRow (pending : StoreMutations) (document : Json) : Reading StoreMutations := do
  match ← asArr document with
  | [store, key, additions, deletions] =>
    let mutation := Mutation.ofParts (← asEntries additions) (← asList asHex deletions)
    return Transaction.stageRow pending (← asStr store) (← asHex key) mutation
  | _ => malformed "row"

/-- The pending mutations of rows, those of one row in order. -/
def asBatch (document : Json) : Reading StoreMutations := do
  (← asArr document).foldlM asStagedRow .empty

def cacheStats (cache : Cache) : Json :=
  .obj [("len", nat cache.size), ("empty", flag cache.isEmpty),
    ("stats", .obj [("hits", nat cache.hits), ("misses", nat cache.misses),
      ("invalidations", nat cache.invalidations)])]

def transactionState : TransactionState → String
  | .running => "open"
  | .committed => "committed"
  | .failed => "failed"
  | .rolledBack => "rolled_back"

def transactionStep {α : Type} (write : α → Json) (step : Result α × Transaction) : Json :=
  .obj [("r", outcome write step.1), ("state", .str (transactionState step.2.state)),
    ("is_open", flag step.2.isOpen), ("modified", flag step.2.hasModifications),
    ("staged_rows", nat step.2.stagedRows)]

/-! ### Scans -/

/-- The report of a scan that was waited for, and what was noted when it was cancelled. -/
def awaitedScan (report : ScanReport) (notes : ScriptNotes) : List (String × Json) :=
  let atCancel := notes.atCancel.map fun seen =>
    Json.arr [.str ScanState.running.label, word seen.1, flag seen.2]
  reportFields report ++ [("is_success", flag report.isSuccess),
    ("deletes", word (report.metrics.get IndexRemoval.deletes)),
    ("at_cancel", atCancel.getD .null), ("handle_cancelled", flag report.cancelled),
    ("into_result", outcome (fun _ => .null) report.toResult)]

def finishedScan : Result ScanReport → List (String × Json)
  | .ok report => [("ok", .obj (reportFields report))]
  | .error cause => ("error", .str (kindName cause)) :: failureFields cause

/-- The rows that a script has noted, or their keys only. -/
def notedScan (script : Script) (notes : ScriptNotes) (keysOnly : Bool) : Json :=
  list (fun row => if keysOnly then hex row.1 else .arr [hex row.1, list entries row.2])
    (notedRows script.queries notes)

/-! ### Identifier blocks -/

def asBlock (document : Json) : Reading IdBlock := do
  match ← asArr document with
  | [partitionId, namespaceId, start, stop] =>
    return ⟨← asUInt32 partitionId, ← asUInt32 namespaceId, ← asUInt64 start, ← asUInt64 stop⟩
  | _ => malformed "block"

def block (block : IdBlock) : Json :=
  .arr [nat block.partitionId.toNat, nat block.namespaceId.toNat, word block.start,
    word block.stop]

/-- A sizer with the shape of one namespace as a document gives it. -/
def asOverride (sizer : BlockSizer) (document : Json) : Reading BlockSizer := do
  match ← asArr document with
  | [namespaceId, size, bound] =>
    return sizer.withNamespace (← asUInt32 namespaceId) ⟨← asUInt64 size, ← asUInt64 bound⟩
  | _ => malformed "shape"

/-- A shape for all namespaces and, under `over`, the shapes of single ones. -/
def asSizer (document : Json) : Reading BlockSizer := do
  let uniform := BlockSizer.uniform (← getWord document "block") (← getWord document "bound")
  (← getOr document "over" [] asArr).foldlM asOverride uniform

end Document

end GraphStore
