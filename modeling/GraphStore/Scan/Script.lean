import GraphStore.Part
import GraphStore.Scan.Job

/-!
Contract: a job that follows a script.

Owns a job for trying out scans: it notes the keys it works on and fails, crashes or
has the scan cancelled where its script says so.
-/

namespace GraphStore

structure Script where
  name : String
  store : String
  queries : List Slice
  filter : KeyFilter
  validateFailure : Option StoreError
  createFailure : Option StoreError
  startFailure : Option StoreError
  finishFailure : Option StoreError
  crashKeys : List Bytes
  failKeys : List Bytes
  cancelKey : Option Bytes
  /-- The counter of handled keys; a second one counts the bytes of their values. -/
  counter : Option String

structure ScriptNotes where
  handled : List (Bytes × RowSlices)
  cancelled : Bool
  /-- The keys that were done when the scan was cancelled, and whether it had been
  cancelled before. -/
  atCancel : Option (UInt64 × Bool)

def ScriptNotes.empty : ScriptNotes := ⟨[], false, none⟩

namespace Script

variable {σ : Type}

/-- Fails with a planned failure, if there is one. -/
def raise {τ : Type} : Option StoreError → Action τ Unit
  | some failure => throw failure
  | none => return ()

def addWeight (settings : Configuration) (metrics : ScanMetrics) : ScanMetrics :=
  match settings.getUInt64? "weight" with
  | some weight => metrics.add "weight" weight
  | none => metrics

def cancel (notes : Part σ ScriptNotes) (metered : Metered σ) : Metered σ :=
  let noted := notes.view metered.world
  let noted := { noted with
    cancelled := true
    atCancel := some (metered.metrics.successes, noted.cancelled) }
  { metered with world := notes.replace metered.world noted }

def note (notes : Part σ ScriptNotes) (key : Bytes) (slices : RowSlices)
    (metered : Metered σ) : Metered σ :=
  let noted := notes.view metered.world
  let noted := { noted with handled := noted.handled ++ [(key, slices)] }
  { metered with world := notes.replace metered.world noted }

def valueBytes (slices : RowSlices) : Nat :=
  let entries := slices.flatMap Prod.snd
  entries.foldl (fun total entry => total + entry.value.length) 0

/-- Counts a handled key and the bytes of its values. -/
def countKey (script : Script) (slices : RowSlices) (metrics : ScanMetrics) : ScanMetrics :=
  match script.counter with
  | some counter =>
    (metrics.add counter 1).add (counter ++ "-bytes") (UInt64.ofNat (valueBytes slices))
  | none => metrics

def process (script : Script) (notes : Part σ ScriptNotes) (key : Bytes)
    (slices : RowSlices) : StateM (Metered σ) Handled := do
  if script.crashKeys.contains key then return .crashed
  if script.cancelKey = some key then
    modify (cancel notes)
  modify (note notes key slices)
  if script.failKeys.contains key then return .failed (.temporary "injected")
  modify fun metered => metered.count (script.countKey slices)
  return .done

def job (script : Script) (notes : Part σ ScriptNotes) : ScanJob σ Unit where
  name := script.name
  validate := do
    raise script.validateFailure
    return script.store
  create := raise script.createFailure
  start jobSettings graphSettings _ := do
    raise script.startFailure
    modify fun metered =>
      metered.count fun metrics => addWeight graphSettings (addWeight jobSettings metrics)
  finish _ := do
    modify fun metered => metered.count fun metrics => metrics.add "worker-ends" 1
    raise script.finishFailure
  queries _ := script.queries
  filter _ _ := script.filter
  process _ := script.process notes

end Script

end GraphStore
