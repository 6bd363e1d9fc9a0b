import GraphStore.Action
import GraphStore.Json.Text
import GraphStore.Paging
import GraphStore.Scan.Basic
import GraphStore.Slice

/-!
Contract: the work that a scan does on each key.

Owns the named settings that jobs receive, with their document and text form, in which the names
ascend, and the operations of a job. Every worker of a scan gets a job state of its own, which
is started before the worker's first key and finished after its last.
-/

namespace GraphStore

/-! ### Settings -/

structure Configuration where
  settings : OrderedMap String Json

namespace Configuration

def empty : Configuration := ⟨.empty⟩

/-- The configuration with a setting, in place of an earlier one of its name. -/
def set (configuration : Configuration) (name : String) (value : Json) : Configuration :=
  ⟨configuration.settings.insert name value⟩

def get? (configuration : Configuration) (name : String) : Option Json :=
  configuration.settings.find? name

def getString? (configuration : Configuration) (name : String) : Option String := do
  (← configuration.get? name).asString?

/-- A setting that is a natural number below `2 ^ 64`. -/
def getUInt64? (configuration : Configuration) (name : String) : Option UInt64 := do
  (← configuration.get? name).asUInt64?

def isEmpty (configuration : Configuration) : Bool := configuration.settings.isEmpty

def toDocument (configuration : Configuration) : Json := .obj configuration.settings.entries

def ofDocument? : Json → Option Configuration
  | .obj fields => some ⟨OrderedMap.ofList fields⟩
  | _ => none

def text (configuration : Configuration) : String := configuration.toDocument.text

end Configuration

/-! ### Jobs -/

/-- A state with the counters of a scan. -/
structure Metered (σ : Type) where
  world : σ
  metrics : ScanMetrics

namespace Metered

variable {σ α : Type}

/-- Runs an operation on the state beside the counters. -/
def onWorld (action : Action σ α) : Action (Metered σ) α :=
  action.within Metered.world fun metered world => { metered with world := world }

def count (step : ScanMetrics → ScanMetrics) (metered : Metered σ) : Metered σ :=
  { metered with metrics := step metered.metrics }

end Metered

/-- The entries of a row in several slices. -/
abbrev RowSlices := List (Slice × List Entry)

/-- The slices of a row with the entries of one more; a slice occurs once. -/
def RowSlices.put (slices : RowSlices) (slice : Slice) (entries : List Entry) : RowSlices :=
  (slice, entries) :: slices.filter fun other => other.1 ≠ slice

inductive Handled where
  | done
  | failed (failure : StoreError)
  /-- The worker itself is lost. -/
  | crashed
deriving DecidableEq, Repr

/-- A job on states `σ` whose workers keep states `ω`. -/
structure ScanJob (σ ω : Type) where
  name : String
  /-- Checks that the job can run, and names the store to scan. -/
  validate : Action σ String
  /-- A new worker state. -/
  create : Action σ ω
  /-- Prepares a worker, given the settings of the job and of the graph. -/
  start : Configuration → Configuration → ω → Action (Metered σ) ω
  /-- Releases what a worker holds. -/
  finish : ω → Action (Metered σ) ω
  /-- The slices to read of every key; the first of them drives the walk over keys. -/
  queries : ω → List Slice
  /-- The keys that concern the job. -/
  filter : ω → σ → KeyFilter
  /-- Works on a key with the entries of its row. -/
  process : ω → Bytes → RowSlices → StateM (Metered σ) Handled

end GraphStore
