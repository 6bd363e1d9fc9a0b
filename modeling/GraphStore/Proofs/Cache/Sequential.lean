import GraphStore.Proofs.Cache.Steps
import GraphStore.Proofs.Transaction.Flush

/-!
Contract: calls one after the other see nothing of a cache.

Owns the calls that reach a store through its cache (`RowCall`), the flush of a transaction among
them, and what they are on the store itself. Behind a cache that mirrors the table of its store,
every call answers as it does on the store and leaves the backend as it does there
(`Ready.performAll`); failing writes included, since a write reaches its own rows only.
-/

namespace GraphStore

/-! ### Rows out of reach -/

theorem Tables.row_applyAll_of_untouched {changes : List RowChange} {store : String} {key : Bytes}
    (untouched : ∀ change ∈ changes, change.key ≠ key) (tables : Tables) :
    Tables.row (Log.applyAll changes tables) store key = Tables.row tables store key := by
  have none : changes.filter (RowChange.touches store key) = [] :=
    List.filter_eq_nil_iff.2 fun change member touches =>
      untouched change member (RowChange.touches_iff.1 touches).2
  rw [row_applyAll, none]
  rfl

theorem TableView.row_of_wrote {σ : Type} {view : TableView σ} {before after : σ}
    {changes : List RowChange} (wrote : view.Wrote before changes after) {key : Bytes}
    (other : ∀ change ∈ changes, change.key ≠ key) (store : String) :
    Tables.row (view.tables after) store key = Tables.row (view.tables before) store key := by
  obtain ⟨front, isFront, shown⟩ := wrote
  rw [TableView.tables_eq shown]
  refine Tables.row_applyAll_of_untouched (fun change member => ?_) _
  exact other change (isFront.subset member)

/-! ### Calls -/

/-- A call that reaches a store through its cache, the flush of the staged rows of a transaction, or
the clearing of the cache. -/
inductive RowCall where
  | getSlice (key : Bytes) (slice : Slice)
  | mutate (key : Bytes) (additions : List Entry) (deletions : List Bytes)
  | compareAndSwap (key column : Bytes) (expected : Option Bytes) (new : Bytes)
  | flush (bufferSize : Nat) (rows : OrderedMap Bytes Mutation)
  | clearCache

namespace RowCall

variable {σ τ : Type}

def perform (stores : CachedStores τ) (name : String) (handle : CachedStore) :
    RowCall → Action τ Reply
  | .getSlice key slice => do
    return .entries (← stores.getSlice handle key slice)
  | .mutate key additions deletions => do
    stores.mutate handle key additions deletions
    return .done
  | .compareAndSwap key column expected new => do
    return .swapped (← stores.compareAndSwap handle key column expected new)
  | .flush bufferSize rows => do
    Transaction.flushStore stores bufferSize name rows
    return .done
  | .clearCache => do
    stores.clearCache handle
    return .done

/-- Runs a call on the store itself, which has no cache to clear. -/
def performBare (manager : Manager σ) (name : String) (store : StoreRef) :
    RowCall → Action σ Reply
  | .getSlice key slice => do
    return .entries (← manager.getSlice store key slice)
  | .mutate key additions deletions => do
    manager.mutate store key additions deletions
    return .done
  | .compareAndSwap key column expected new => do
    return .swapped (← manager.compareAndSwap store key column expected new)
  | .flush bufferSize rows => do
    Transaction.writeStore manager bufferSize name store rows.entries
    return .done
  | .clearCache => return .done

/-- The replies of calls that follow one another, and the state they leave. -/
def performAll (perform : RowCall → Action τ Reply) : List RowCall → τ → List (Result Reply) × τ
  | [], state => ([], state)
  | call :: calls, state =>
    let (reply, after) := perform call state
    let (replies, final) := performAll perform calls after
    (reply :: replies, final)

def isWrite : RowCall → Bool
  | .mutate _ _ _ | .compareAndSwap _ _ _ _ | .flush _ _ => true
  | .getSlice _ _ | .clearCache => false

def keys : RowCall → List Bytes
  | .mutate key _ _ | .compareAndSwap key _ _ _ => [key]
  | .flush _ rows => rows.keys
  | .getSlice _ _ | .clearCache => []

/-- The row changes that a call makes if all goes well. -/
def changes (name : String) : RowCall → List RowChange
  | .mutate key additions deletions => [⟨name, key, additions, deletions⟩]
  | .compareAndSwap key column _ new => [⟨name, key, [⟨column, new⟩], []⟩]
  | .flush _ rows => StoreCall.batchRows name rows.entries
  | .getSlice _ _ | .clearCache => []

/-- What a call changes lies in its store, and it invalidates the row. -/
theorem invalidates_changes {name : String} {call : RowCall} {change : RowChange}
    (member : change ∈ call.changes name) : change.store = name ∧ change.key ∈ call.keys := by
  cases call with
  | getSlice | clearCache => exact absurd member List.not_mem_nil
  | mutate | compareAndSwap =>
      obtain rfl := List.mem_singleton.1 member
      exact ⟨rfl, List.mem_singleton_self _⟩
  | flush bufferSize rows =>
      obtain ⟨row, inRows, rfl⟩ := List.mem_map.1 member
      exact ⟨rfl, List.mem_map_of_mem inRows⟩

variable {manager : Manager σ} (backend : TableBackend manager)

theorem getSlice_performBare {state : σ} (isOpen : backend.isOpen state = true) (name : String)
    (key : Bytes) (slice : Slice) :
    (RowCall.getSlice key slice).performBare manager name (backend.refer state name) state =
      (.ok (.entries (Table.slice (Tables.table (backend.tables state) name) key slice)), state) :=
  Action.bind_of_ok (backend.reads state name key slice isOpen)

/-- A call on an open store writes a front of its row changes, and nothing else. -/
theorem wrote_performBare {state : σ} (isOpen : backend.isOpen state = true) (name : String)
    (call : RowCall) :
    backend.Wrote state (call.changes name)
      (call.performBare manager name (backend.refer state name) state).2 := by
  cases call with
  | getSlice key slice =>
      rw [getSlice_performBare backend isOpen]
      exact .refl state _
  | mutate key additions deletions =>
      rw [performBare, Action.bind_pure_apply]
      exact (backend.mutates state name key additions deletions).reaches
  | compareAndSwap key column expected new =>
      rw [performBare, Action.bind_pure_apply]
      exact backend.swaps state name key column expected new
  | flush bufferSize rows =>
      rw [performBare, Action.bind_pure_apply]
      exact (Transaction.writes_writeStore backend bufferSize name rows state).reaches
  | clearCache => exact .refl state _

end RowCall

/-! ### Runs -/

namespace CachedStores

variable {σ α : Type} {manager : Manager σ}

/-- An acquired handle of an open store, with a cache that mirrors the table. -/
structure Ready (backend : TableBackend manager) (name : String) (handle : CachedStore)
    (pool : CachePool) (state : σ) : Prop where
  found : pool.find? name = some handle
  ofStore : handle.store = backend.refer state name
  isOpen : backend.isOpen state = true
  mirrors : pool.Mirrors handle (Tables.table (backend.tables state) name)

/-- A write through the cache is the write, and the invalidation of its row whatever came of it. -/
theorem writing_pooled (stripe : Bytes → Stripe) (handle : CachedStore) (key : Bytes)
    (write : Action σ α) (pool : CachePool) (state : σ) :
    (pooled manager stripe).writing handle key (Part.second.run write) (pool, state) =
      ((write state).1, (pool.invalidateAll stripe handle [key], (write state).2)) := rfl

namespace Ready

variable {backend : TableBackend manager} {name : String} {handle : CachedStore}
  {pool : CachePool} {state : σ} (ready : Ready backend name handle pool state)
include ready

/-- The store answers with the slice of its table. -/
theorem reads (key : Bytes) (slice : Slice) :
    manager.getSlice handle.store key slice state =
      (.ok (Table.slice (Tables.table (backend.tables state) name) key slice), state) := by
  rw [ready.ofStore]
  exact backend.reads state name key slice ready.isOpen

/-- Rows that were written and invalidated leave the handle ready. -/
theorem wrote {after : σ} {changes : List RowChange} {keys : List Bytes}
    (wrote : backend.Wrote state changes after) (listed : ∀ change ∈ changes, change.key ∈ keys)
    (stripe : Bytes → Stripe) :
    Ready backend name handle (pool.invalidateAll stripe handle keys) after := by
  have ⟨front, isFront, shown⟩ := wrote
  refine ⟨?_, ?_, (TableView.isOpen_eq shown).trans ready.isOpen, fun caching => ?_⟩
  · rw [CachePool.find?_invalidateAll]
    exact ready.found
  · rw [ready.ofStore, TableView.refer_eq shown]
  · rw [CachePool.isCaching, CachePool.capacity_invalidateAll] at caching
    -- What is left in the cache is of rows that the write does not name.
    refine CachePool.all_invalidateAll caching stripe handle keys fun held member notListed => ?_
    have other : ∀ change ∈ changes, change.key ≠ held.key :=
      fun change inChanges same => notListed (same ▸ listed change inChanges)
    have row := TableView.row_of_wrote wrote other name
    exact (ready.mirrors caching held member).trans (congrArg (Row.slice · held.slice) row.symm)

theorem cleared : Ready backend name handle (pool.clearCache handle) state := by
  have none : (pool.cache handle).clear.All
      (CachePool.IsSliceOf (Tables.table (backend.tables state) name)) := nofun
  rw [CachePool.clearCache]
  split
  · exact ⟨ready.found, ready.ofStore, ready.isOpen, fun _ => CachePool.all_withCache none handle⟩
  · exact ready

/-- A write through the cache is the write, and the invalidation of its rows whatever comes of
it. -/
theorem performWrite (stripe : Bytes → Stripe) {call : RowCall} (isWrite : call.isWrite = true) :
    call.perform (pooled manager stripe) name handle (pool, state) =
      ((call.performBare manager name handle.store state).1,
        (pool.invalidateAll stripe handle call.keys,
          (call.performBare manager name handle.store state).2)) := by
  cases call with
  | getSlice | clearCache => exact absurd isWrite Bool.false_ne_true
  | mutate key additions deletions =>
      have written :
          (pooled manager stripe).mutate handle key additions deletions (pool, state) = _ :=
        writing_pooled stripe handle key _ pool state
      rw [RowCall.perform, RowCall.performBare, Action.bind_pure_apply, Action.bind_pure_apply,
        written]
      rfl
  | compareAndSwap key column expected new =>
      have written : (pooled manager stripe).compareAndSwap handle key column expected new
          (pool, state) = _ := writing_pooled stripe handle key _ pool state
      rw [RowCall.perform, RowCall.performBare, Action.bind_pure_apply, Action.bind_pure_apply,
        written]
      rfl
  | flush bufferSize rows =>
      rw [RowCall.perform, RowCall.performBare, Action.bind_pure_apply, Action.bind_pure_apply,
        Transaction.flushStore_pooled stripe bufferSize name rows
          (store_of_found stripe ready.found) rfl]
      rfl

/-- A call through the cache answers as the call on the store, and leaves the backend as it. -/
theorem perform (stripe : Bytes → Stripe) (call : RowCall) :
    ∃ left, call.perform (pooled manager stripe) name handle (pool, state) =
        ((call.performBare manager name handle.store state).1,
          (left, (call.performBare manager name handle.store state).2)) ∧
      Ready backend name handle left (call.performBare manager name handle.store state).2 := by
  have wrote := call.wrote_performBare backend ready.isOpen name
  rw [← ready.ofStore] at wrote
  have written := ready.wrote wrote
    (fun _ member => (RowCall.invalidates_changes member).2) stripe
  cases call with
  | getSlice key slice =>
      obtain ⟨left, answered, handles, -, mirrors⟩ :=
        getSlice_pooled stripe ready.reads ready.mirrors key slice
      rw [ready.ofStore, RowCall.getSlice_performBare backend ready.isOpen]
      refine ⟨left, Action.bind_of_ok answered, ?_, ready.ofStore, ready.isOpen, mirrors⟩
      rw [CachePool.find?, handles]
      exact ready.found
  | mutate | compareAndSwap | flush => exact ⟨_, ready.performWrite stripe rfl, written⟩
  | clearCache => exact ⟨_, rfl, ready.cleared⟩

/-- Calls one after the other through the cache answer as on the store, and leave the same. -/
theorem performAll (stripe : Bytes → Stripe) (calls : List RowCall) :
    let bare := RowCall.performAll (RowCall.performBare manager name handle.store) calls state
    ∃ left, RowCall.performAll (RowCall.perform (pooled manager stripe) name handle) calls
      (pool, state) = (bare.1, (left, bare.2)) := by
  induction calls generalizing pool state with
  | nil => exact ⟨pool, rfl⟩
  | cons call calls inductionHypothesis =>
      obtain ⟨left, ran, stillReady⟩ := ready.perform stripe call
      obtain ⟨final, runs⟩ := inductionHypothesis stillReady
      refine ⟨final, ?_⟩
      rw [RowCall.performAll, ran]
      dsimp only
      rw [runs]
      rfl

end Ready

end CachedStores

end GraphStore
