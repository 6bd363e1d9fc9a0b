import GraphStore.Index.Composite
import GraphStore.Scan.Transactional

/-!
Contract: the job that removes what is stored for a disabled index.

Owns the target of a removal, the choice of keys, and the work on a row. The rows of a
composite index stand in the index store; the cells of a relation-type index stand in a
column range of the rows of elements. A second run finds nothing to remove.
-/

namespace GraphStore

/-- Where an index is stored: the store, and the slice of its rows. -/
structure RemovalTarget where
  index : IndexDescriptor
  store : String
  slice : Slice

namespace RemovalTarget

/-- The target of removing an index, which must be disabled and not mixed. -/
def resolve (schema : Schema) (options : IndexOptions) (name : String) :
    Result RemovalTarget := do
  let index ← schema.index name
  if index.isMixed then
    throw (.unsupported .mixedRemoval)
  if index.status ≠ .disabled then
    throw (.precondition (.notDisabled name index.status.label))
  match index.relationSlice? with
  | some slice => return ⟨index, options.edgeStore, ← slice⟩
  | none => return ⟨index, options.indexStore, Slice.fullRow⟩

/-- The rows that concern the index: those of its own, or those of elements that are not
reserved. -/
def filter (target : RemovalTarget) (schema : Schema) : KeyFilter := fun key =>
  match Encoding.leadingUInt64 key with
  | .error _ => false
  | .ok number =>
    match target.index.indexType with
    | .relationType _ _ => !schema.isReserved number
    | _ => number = target.index.id

end RemovalTarget

namespace IndexRemoval

variable {σ : Type}

/-- The counter of removed cells. -/
def deletes : String := "deletes"

def resolve (context : IndexJobContext σ) (name : String) : Action σ RemovalTarget := do
  Action.ofResult (RemovalTarget.resolve (context.schema (← get)) context.options name)

def process (context : IndexJobContext σ) (target : Option RemovalTarget) (key : Bytes)
    (slices : RowSlices) : StateM (Metered σ) Handled := do
  match target with
  | none => return .failed (.closed .removalWorker)
  | some target =>
    let columns := slices.flatMap fun slice => slice.2.map Entry.column
    if columns.isEmpty then return .done
    context.commitCounting deletes columns.length fun transaction =>
      transaction.mutate target.store key [] columns

def job (context : IndexJobContext σ) (name : String) : ScanJob σ (Option RemovalTarget) where
  name := "index-remove:" ++ name
  validate := do return (← resolve context name).store
  create := return none
  start _ _ _ := do return some (← Metered.onWorld (resolve context name))
  finish _ := return none
  queries target := (target.map RemovalTarget.slice).toList
  filter target world := match target with
    | some target => target.filter (context.schema world)
    | none => fun _ => false
  process := process context

end IndexRemoval

end GraphStore
