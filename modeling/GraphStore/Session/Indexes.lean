import GraphStore.Index.Composite
import GraphStore.Scan.Removal
import GraphStore.Scan.Repair
import GraphStore.Scan.Scanner
import GraphStore.Session.Basic

/-!
Contract: the index rows and the scans of a session.

Owns reading and writing single index rows, the surroundings of index jobs, and running a
scan over the storage of the session.
-/

namespace GraphStore.SessionContext

variable {μ ω : Type}

def index (name : String) : Action (Session μ) IndexDescriptor := do
  Action.ofResult ((← get).schema.index name)

def setStatus (name : String) (status : SchemaStatus) : Action (Session μ) Unit := do
  let schema ← Action.ofResult ((← get).schema.setStatus name status)
  modify fun session => { session with schema := schema }

def indexStore (context : SessionContext μ) : Action (Session μ) StoreRef :=
  context.manager.openStore context.settings.indexOptions.indexStore

/-- Records an element under a combination of values; answers the row key. -/
def recordElement (context : SessionContext μ) (name : String) (values : List Value)
    (element : UInt64) : Action (Session μ) Bytes := do
  let cell ← Action.ofResult ((← index name).indexCell values element)
  context.manager.mutate (← context.indexStore) cell.key [cell.entry] []
  return cell.key

/-- The elements recorded under a combination of values, in column order. -/
def findElements (context : SessionContext μ) (name : String) (values : List Value) :
    Action (Session μ) (List UInt64) := do
  let index ← index name
  let (key, slice) ← Action.ofResult (index.lookup values)
  let entries ← context.manager.getSlice (← context.indexStore) key slice
  Action.ofResult (entries.mapM index.elementOfEntry)

def jobContext (context : SessionContext μ) : IndexJobContext (Session μ) where
  stores := context.stores
  bufferSize := context.settings.bufferSize
  schema := Session.schema
  options := context.settings.indexOptions

def runScan (context : SessionContext μ) (job : ScanJob (Session μ) ω) (options : ScanOptions)
    (range : KeyRange) (jobSettings graphSettings : Configuration) :
    Action (Session μ) ScanReport := do
  modify fun session => { session with notes := .empty }
  let scanner : Scanner (Session μ) :=
    ⟨context.manager, options, fun session => session.notes.cancelled⟩
  scanner.scan job id range jobSettings graphSettings

end GraphStore.SessionContext
