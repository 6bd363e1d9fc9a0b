import GraphStore.Index.Schema
import GraphStore.Scan.Job
import GraphStore.Transaction

/-!
Contract: what index jobs share.

Owns their surroundings, the setting that names their index, and writing in a
transaction of its own, which counts transactions that fail.
-/

namespace GraphStore

/-- The surroundings of an index job: cached stores, the size of commit batches, and
the schema. -/
structure IndexJobContext (σ : Type) where
  stores : CachedStores σ
  bufferSize : Nat
  schema : σ → Schema
  options : IndexOptions

namespace IndexJobContext

variable {σ : Type}

def failedTransactions : String := "failed-tx"

def indexSetting : String := "index-name"

def indexOf (settings : Configuration) : Result String :=
  match settings.getString? indexSetting with
  | some index => .ok index
  | none => .error (.invalidArgument .missingIndexName)

/-- Stages writes and commits them; a failure of either leaves nothing staged and is
counted. -/
def inTransaction (context : IndexJobContext σ) (stage : Transaction → Result Transaction) :
    StateM (Metered σ) (Result Unit) := fun metered =>
  let fails (failure : StoreError) (metered : Metered σ) : Result Unit × Metered σ :=
    (.error failure, metered.count fun metrics => metrics.add failedTransactions 1)
  match stage (Transaction.start context.bufferSize) with
  | .error failure => fails failure metered
  | .ok transaction =>
    let ((outcome, _), world) := transaction.commit context.stores metered.world
    let metered := { metered with world := world }
    match outcome with
    | .ok () => (.ok (), metered)
    | .error failure => fails failure metered

/-- The end of the work on a key whose writes are staged by `stage`; success adds to a
counter. -/
def commitCounting (context : IndexJobContext σ) (counter : String) (count : Nat)
    (stage : Transaction → Result Transaction) : StateM (Metered σ) Handled := do
  match ← context.inTransaction stage with
  | .error failure => return .failed failure
  | .ok () =>
    modify fun metered => metered.count fun metrics => metrics.add counter (UInt64.ofNat count)
    return .done

end IndexJobContext

end GraphStore
