import GraphStore.Index.Composite
import GraphStore.Scan.Extraction
import GraphStore.Scan.Transactional

/-!
Contract: the job that builds the rows of a composite index from the rows of elements.

Owns its precondition, the choice of keys, and the work on a row. Writing a cell that is
already there changes nothing, so the job may be run again.
-/

namespace GraphStore.IndexRepair

variable {σ : Type}

/-- The counter of written cells. -/
def adds : String := "adds"

/-- The index to build, which must be composite and registered or enabled. -/
def resolve (schema : Schema) (name : String) : Result IndexDescriptor := do
  let index ← schema.index name
  if !index.isComposite then
    throw (.unsupported .otherRebuild)
  match index.status with
  | .registered | .enabled => return index
  | status => throw (.precondition (.notRebuildable name status.label))

def current (context : IndexJobContext σ) (name : String) : Action σ IndexDescriptor := do
  Action.ofResult (resolve (context.schema (← get)) name)

/-- The cells of an element under each of its combinations of values. -/
def cells (index : IndexDescriptor) (element : UInt64) (combinations : List (List Value)) :
    Result (List IndexCell) :=
  combinations.mapM fun values => index.indexCell values element

def stageCells (store : String) (cells : List IndexCell) (transaction : Transaction) :
    Result Transaction :=
  cells.foldlM (fun transaction cell => transaction.mutate store cell.key [cell.entry] [])
    transaction

/-- The cells that the row of an element calls for. -/
def cellsOfRow (index : IndexDescriptor) (extract : Extractor) (key : Bytes)
    (slices : RowSlices) : Result (List IndexCell) := do
  let element ← Encoding.leadingUInt64 key
  let row := (slices.lookup Slice.fullRow).getD []
  cells index element (← extract index element row)

/-- Writes the cells of an element. -/
def process (context : IndexJobContext σ) (extract : Extractor)
    (index : Option IndexDescriptor) (key : Bytes) (slices : RowSlices) :
    StateM (Metered σ) Handled := do
  match index with
  | none => return .failed (.closed .repairWorker)
  | some index =>
    match cellsOfRow index extract key slices with
    | .error failure => return .failed failure
    | .ok [] => return .done
    | .ok cells =>
      context.commitCounting adds cells.length (stageCells context.options.indexStore cells)

def job (context : IndexJobContext σ) (extract : Extractor) (name : String) :
    ScanJob σ (Option IndexDescriptor) where
  name := "index-repair:" ++ name
  validate := do
    let _ ← current context name
    return context.options.edgeStore
  create := return none
  start _ _ _ := do return some (← Metered.onWorld (current context name))
  finish _ := return none
  queries _ := [Slice.fullRow]
  filter _ world := fun key =>
    match Encoding.leadingUInt64 key with
    | .error _ => false
    | .ok element => !(context.schema world).isReserved element
  process := process context extract

end GraphStore.IndexRepair
