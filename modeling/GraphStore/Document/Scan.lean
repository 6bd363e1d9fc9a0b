import GraphStore.Document.Index
import GraphStore.Json.Basic
import GraphStore.Scan.Basic
import GraphStore.Scan.Extraction
import GraphStore.Scan.Scanner
import GraphStore.Scan.Script

/-!
Contract: scans, their jobs and their reports as documents.

Owns the forms of settings, counters, extractors, scripts and reports.
-/

namespace GraphStore

/-! ### Settings -/

def ScanOptions.ofDocument? (document : Json) : Option ScanOptions := do
  let usual := ScanOptions.standard
  let count (default : Nat) : Option Json → Option Nat :=
    Json.fieldOr? default fun content => (Json.asUInt64? content).map UInt64.toNat
  match ← document.record? ["workers", "keys_per_batch", "partitions"] with
  | [workers, keysPerBatch, partitions] =>
    some ⟨← count usual.workers workers, ← count usual.keysPerBatch keysPerBatch,
      ← count usual.partitions partitions⟩
  | _ => none

namespace Document

def asConfiguration (document : Json) : Reading Configuration :=
  accept (Configuration.ofDocument? document)

/-- The configuration in a field; a field left out has no settings. -/
def getConfiguration (document : Json) (name : String) : Reading Configuration :=
  getOr document name Configuration.empty asConfiguration

/-- The settings of a scan, by one worker unless said otherwise. -/
def asScanOptions (document : Json) : Reading ScanOptions := do
  return ⟨← getOr document "workers" 1 asNat, ← getOr document "batch" 1000 asNat,
    ← getOr document "partitions" 4 asNat⟩

def scanOptions (options : ScanOptions) : Json :=
  list nat [options.workers, options.keysPerBatch, options.partitions]

/-! ### Jobs -/

def asCellForm : String → Reading Extractor.CellForm
  | "str" => .ok .text
  | "bytes" => .ok .bytes
  | "tagged" => .ok .tagged
  | _ => malformed "form of cells"

def readExtractor (document : Json) : Reading Extractor := do
  let form ← asCellForm (← getStr document "as")
  match ← get? document "columns" (asList asHex) with
  | some columns => return .ofColumns columns form
  | none => return .ofStem (← getHex document "prefix") form

/-- The extractor that a document describes; one that is not described properly fails on
every element. -/
def extractor (document : Json) : Extractor :=
  match readExtractor document with
  | .ok found => found
  | .error _ => fun _ _ _ => .error (.invalidValue (.reported "extractor is not described"))

def asScript (document : Json) : Reading Script := do
  return {
    name := ← getOr document "name" "scripted" asStr
    store := ← getStr document "store"
    queries := ← getList document "queries" asSlice
    filter := ← getFilter document "filter"
    validateFailure := ← get? document "validate_error" asFailure
    createFailure := ← get? document "create_error" asFailure
    startFailure := ← get? document "start_error" asFailure
    finishFailure := ← get? document "end_error" asFailure
    crashKeys := ← getList document "panic" asHex
    failKeys := ← getList document "fail" asHex
    cancelKey := ← get? document "cancel" asHex
    counter := ← get? document "count" asStr }

/-! ### Reports -/

def counters (metrics : ScanMetrics) : Json :=
  .obj (metrics.custom.entries.map fun counter => (counter.1, word counter.2))

def reportFields (report : ScanReport) : List (String × Json) :=
  [("job", .str report.job), ("state", .str report.state.label),
    ("successes", word report.metrics.successes), ("failures", word report.metrics.failures),
    ("keys_scanned", word report.keysScanned), ("custom", counters report.metrics),
    ("cancelled", flag report.cancelled)]

/-- The keys that a script has noted with the entries of its slices, in key order. -/
def notedRows (queries : List Slice) (notes : ScriptNotes) : List (Bytes × List (List Entry)) :=
  let rows := notes.handled.map fun (key, slices) =>
    (key, queries.map fun query => (slices.lookup query).getD [])
  rows.mergeSort fun left right => !decide (right.1 < left.1)

end Document

end GraphStore
