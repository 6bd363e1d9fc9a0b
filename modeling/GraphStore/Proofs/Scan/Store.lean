import GraphStore.Proofs.Cache.Pool
import GraphStore.Scan.Scanner

/-!
Contract: stores that a scan walks over.

Owns what a scan relies on (`ScanStore`): a read answers what one table shows, or fails, and
changes neither that table nor a cancellation. Any read may fail at any time. Both backends offer
it for each of their stores, alone or as a part of a larger state (`ScanBackend.scanStore`).
-/

namespace GraphStore

/-- What a scan sees of the states of a scanner. `ready` is what reads and jobs rely on. -/
structure ScanView {σ : Type} (scanner : Scanner σ) where
  table : σ → Table
  ready : σ → Prop

namespace ScanView

variable {σ α : Type} {scanner : Scanner σ}

/-- The table stays as it is, and a cancelled scan stays cancelled. -/
structure Keeps (view : ScanView scanner) (before after : σ) : Prop where
  ready : view.ready before → view.ready after
  table : view.table after = view.table before
  cancelled : scanner.isCancelled before = true → scanner.isCancelled after = true

/-- The operation gives the answer or fails, and changes nothing that the scan sees. -/
def Shows (view : ScanView scanner) (action : Action σ α) (state : σ) (answer : α) : Prop :=
  view.Keeps state (action state).2 ∧ ∀ found, (action state).1 = .ok found → found = answer

theorem Keeps.refl {view : ScanView scanner} (state : σ) : view.Keeps state state :=
  ⟨id, rfl, id⟩

theorem Keeps.trans {view : ScanView scanner} {before between after : σ}
    (first : view.Keeps before between) (second : view.Keeps between after) :
    view.Keeps before after where
  ready isReady := second.ready (first.ready isReady)
  table := second.table.trans first.table
  cancelled isCancelled := second.cancelled (first.cancelled isCancelled)

theorem shows_of_eq {view : ScanView scanner} {action : Action σ α} {state : σ} {answer : α}
    (answered : action state = (.ok answer, state)) : view.Shows action state answer := by
  rw [Shows, answered]
  exact ⟨.refl state, fun found same => (Except.ok.inj same).symm⟩

end ScanView

structure ScanStore {σ : Type} (scanner : Scanner σ) (store : StoreRef) extends
    ScanView scanner where
  starts : ∀ state, ready state →
    toScanView.Shows (scanner.manager.startScan store) state ()
  pages : ∀ state range slice after size, ready state →
    toScanView.Shows (scanner.manager.scanPage store range slice after size) state
      (Table.page (table state) range slice after size)
  reads : ∀ state key slice, ready state →
    toScanView.Shows (scanner.manager.getSlice store key slice) state
      (Table.slice (table state) key slice)
  counts : ∀ state, ready state → (table state).size ≤ scanner.manager.rowCount store state

/-! ### Backends -/

/-- A manager whose stores are tables that can be walked over. -/
structure ScanBackend {σ : Type} (manager : Manager σ) extends TableBackend manager where
  admits : ∀ state name, isOpen state = true →
    manager.startScan (refer state name) state = (.ok (), state)
  pages : ∀ state name range slice after size, isOpen state = true →
    manager.scanPage (refer state name) range slice after size state =
      (.ok (Table.page (Tables.table (tables state) name) range slice after size), state)
  counts : ∀ state name,
    (Tables.table (tables state) name).size ≤ manager.rowCount (refer state name) state

namespace ScanBackend

variable {σ τ : Type} {manager : Manager σ}

/-- A store of a backend that is a part of a larger state; `also` is what else is to hold there. -/
def scanStore (backend : ScanBackend manager) (part : Part τ σ) (options : ScanOptions)
    (isCancelled : τ → Bool) (name : String) (store : StoreRef) (also : τ → Prop) :
    ScanStore ⟨part.manager manager, options, isCancelled⟩ store where
  table whole := Tables.table (backend.tables (part.view whole)) name
  ready whole := backend.isOpen (part.view whole) = true ∧
    backend.refer (part.view whole) name = store ∧ also whole
  starts whole isReady := by
    apply ScanView.shows_of_eq
    show part.run (manager.startScan store) whole = _
    rw [Part.run_apply, ← isReady.2.1, backend.admits _ name isReady.1, part.replace_view]
  pages whole range slice after size isReady := by
    apply ScanView.shows_of_eq
    show part.run (manager.scanPage store range slice after size) whole = _
    rw [Part.run_apply, ← isReady.2.1, backend.pages _ name range slice after size isReady.1,
      part.replace_view]
  reads whole key slice isReady := by
    apply ScanView.shows_of_eq
    show part.run (manager.getSlice store key slice) whole = _
    rw [Part.run_apply, ← isReady.2.1, backend.reads _ name key slice isReady.1,
      part.replace_view]
  counts whole isReady := by
    show _ ≤ manager.rowCount store (part.view whole)
    rw [← isReady.2.1]
    exact backend.counts (part.view whole) name

end ScanBackend

def GuardedManager.scanBackend {σ : Type} {manager : Manager σ} {guarded : GuardedManager manager}
    (followsStores : guarded.FollowsStores) : ScanBackend manager where
  toTableBackend := tableBackend followsStores
  admits _ _ isOpen := guarded.startScan_of_open (Bool.not_eq_true' _ ▸ isOpen) _
  pages _ name range slice after size isOpen :=
    guarded.steady_scanPage (Bool.not_eq_true' _ ▸ isOpen) name range slice after size
  counts state name := by
    rw [guarded.counts]
    exact Nat.le_of_eq (congrArg OrderedMap.size (Generations.table_refer _ name).symm)

def Memory.scanBackend : ScanBackend Memory.manager := GuardedManager.scanBackend followsStores

def Embedded.scanBackend : ScanBackend Embedded.manager := GuardedManager.scanBackend followsStores

end GraphStore
