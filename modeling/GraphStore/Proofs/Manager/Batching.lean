import GraphStore.Proofs.Manager.Handles
import GraphStore.Proofs.Manager.Tabular

/-!
Contract: batches, where handles of earlier generations are kept.

Owns the laws of a manager that takes batches by the names of stores beside calls through handles
(`BatchBackend`): a batch reaches the current tables only, and an open manager answers through
every handle. Both backends obey them.
-/

namespace GraphStore

namespace Generations

variable (generations : Generations)

/-- Changes by name do not reach the tables of earlier generations. -/
theorem table_applyAll_of_past {store : StoreRef} (past : store.generation < generations.number)
    (changes : List RowChange) :
    (generations.applyAll changes).table store = generations.table store := by
  rw [number] at past
  show Tables.table ((generations.earlier[store.generation]?).getD _) store.name =
    Tables.table ((generations.earlier[store.generation]?).getD _) store.name
  rw [List.getElem?_eq_getElem past]
  rfl

theorem table_applyAll_refer (name : String) (changes : List RowChange) :
    (generations.applyAll changes).table (generations.refer name) =
      Tables.table (Log.applyAll changes generations.current) name :=
  table_refer (generations.applyAll changes) name

end Generations

/-- A manager of generations that takes batches by the names of stores. -/
structure BatchBackend {σ : Type} (manager : Manager σ) extends HandleBackend manager where
  isOpen : σ → Bool
  /-- An open backend takes every batch. -/
  reliable : Prop
  batching : manager.features.batchMutation = true
  opens_of_open : ∀ state name, isOpen state = true →
    manager.openStore name state = (.ok ((stores state).refer name), state)
  reads_of_open : ∀ state handle key slice, isOpen state = true →
    manager.getSlice handle key slice state =
      (.ok (Table.slice ((stores state).table handle) key slice), state)
  follows : ∀ state mutations,
    (Generations.progress stores isOpen reliable).Follows (manager.mutateMany mutations) state
      (StoreMutations.rowChanges mutations)

/-- A guarded manager takes batches that follow the changes of rows store by store. -/
def GuardedManager.batchBackend {σ : Type} {manager : Manager σ} {guarded : GuardedManager manager}
    (followsStores : guarded.FollowsStores) (batching : manager.features.batchMutation = true) :
    BatchBackend manager where
  toHandleBackend := guarded.handleBackend
  isOpen state := !guarded.closed state
  reliable := guarded.reliable
  batching := batching
  opens_of_open _ name isOpen := guarded.openStore_of_open (Bool.not_eq_true' _ ▸ isOpen) name
  reads_of_open _ handle key slice isOpen :=
    guarded.getSlice_of_handle (Bool.not_eq_true' _ ▸ isOpen) handle key slice
  follows state mutations := followsStores.mutateMany mutations state

/-- The backend in memory takes batches, all of them while it is open. -/
def Memory.batchBackend : BatchBackend Memory.manager :=
  GuardedManager.batchBackend followsStores rfl

/-- The backend with the log takes batches, as far as its file does. -/
def Embedded.batchBackend : BatchBackend Embedded.manager :=
  GuardedManager.batchBackend followsStores rfl

end GraphStore
