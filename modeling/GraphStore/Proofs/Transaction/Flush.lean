import GraphStore.Proofs.Transaction.Batches

/-!
Contract: what a flush leaves in the tables.

Owns the flush of one store and of many over a backend whose stores are tables: the staged rows
are written from the first on, all of them when the flush succeeds, whether in batches or row by
row. Handles of the pool go on referring to the stores of the backend.
-/

namespace GraphStore

def TableView.on {τ σ : Type} (view : TableView σ) (part : Part τ σ) : TableView τ where
  tables whole := view.tables (part.view whole)
  refer whole := view.refer (part.view whole)
  isOpen whole := view.isOpen (part.view whole)
  reliable := view.reliable

namespace Transaction

open CachedStores

variable {σ : Type} {manager : Manager σ}

/-! ### The rows of one store -/

/-- Writes rows of one store, in batches where the manager takes them and one by one elsewhere. -/
def writeStore (manager : Manager σ) (size : Nat) (name : String) (store : StoreRef)
    (rows : List (Bytes × Mutation)) : Action σ Unit :=
  if manager.features.batchMutation then flushBatches manager name (chunks size rows)
  else manager.writeEach (.persistence name) store rows

theorem flushBatches_run {τ : Type} (part : Part τ σ) (name : String)
    (parts : List (List (Bytes × Mutation))) :
    flushBatches (part.manager manager) name parts =
      part.run (flushBatches manager name parts) := by
  induction parts with
  | nil => exact (part.run_pure ()).symm
  | cons rows parts inductionHypothesis =>
      rw [flushBatches, flushBatches, part.run_bind, part.run_mapError, inductionHypothesis]
      rfl

theorem writeEach_run {τ : Type} (part : Part τ σ) (rename : StoreError → StoreError)
    (store : StoreRef) (rows : List (Bytes × Mutation)) :
    (part.manager manager).writeEach rename store rows =
      part.run (manager.writeEach rename store rows) := by
  induction rows with
  | nil => exact (part.run_pure ()).symm
  | cons row rows inductionHypothesis =>
      rw [Manager.writeEach, Manager.writeEach, part.run_bind, part.run_mapError,
        inductionHypothesis]
      rfl

theorem writeStore_run {τ : Type} (part : Part τ σ) (size : Nat) (name : String)
    (store : StoreRef) (rows : List (Bytes × Mutation)) :
    writeStore (part.manager manager) size name store rows =
      part.run (writeStore manager size name store rows) := by
  rw [writeStore, writeStore, flushBatches_run, writeEach_run]
  exact (apply_ite part.run _ _ _).symm

theorem rowChanges_batch (store : String) {rows : List (Bytes × Mutation)}
    (ascending : rows.Pairwise (fun left right => left.1 < right.1)) :
    StoreMutations.rowChanges (batch store rows) = StoreCall.batchRows store rows := by
  show StoreCall.batchRows store (OrderedMap.ofList rows).entries ++ [] = _
  rw [List.append_nil, entries_ofList ascending]

/-- Batches of one store are taken as its rows are, where each batch is. -/
theorem follows_flushBatches {progress : Progress σ RowChange}
    (follows : ∀ state mutations, progress.Follows (manager.mutateMany mutations) state
      (StoreMutations.rowChanges mutations))
    (name : String) {parts : List (List (Bytes × Mutation))}
    (ascending : ∀ rows ∈ parts, rows.Pairwise (fun left right => left.1 < right.1)) (state : σ) :
    progress.Follows (flushBatches manager name parts) state
      (StoreCall.batchRows name parts.flatten) := by
  induction parts generalizing state with
  | nil => exact .nothing state
  | cons rows parts inductionHypothesis =>
      obtain ⟨firstAscending, othersAscending⟩ := List.forall_mem_cons.1 ascending
      have first := (follows state (batch name rows)).mapError (naming name)
      rw [rowChanges_batch name firstAscending] at first
      have both := first.andThen fun after _ _ => inductionHypothesis othersAscending after
      rw [StoreCall.batchRows, List.flatten_cons, List.map_append]
      exact both

/-- The batches of the rows of a store. -/
theorem follows_flushBatches_chunks {progress : Progress σ RowChange}
    (follows : ∀ state mutations, progress.Follows (manager.mutateMany mutations) state
      (StoreMutations.rowChanges mutations))
    (size : Nat) (name : String) (rows : OrderedMap Bytes Mutation) (state : σ) :
    progress.Follows (flushBatches manager name (chunks size rows.entries)) state
      (StoreCall.batchRows name rows.entries) := by
  have ascending : ∀ part ∈ chunks size rows.entries,
      part.Pairwise (fun left right => left.1 < right.1) :=
    fun part member => ascending_of_mem_chunks member
  have written := follows_flushBatches follows name ascending state
  rwa [flatten_chunks] at written

theorem writes_writeStore (backend : TableBackend manager) (size : Nat) (name : String)
    (rows : OrderedMap Bytes Mutation) (state : σ) :
    backend.Writes (writeStore manager size name (backend.refer state name) rows.entries) state
      (StoreCall.batchRows name rows.entries) := by
  rw [writeStore]
  split
  · exact follows_flushBatches_chunks backend.mutatesMany size name rows state
  · exact backend.writes_writeEach (.persistence name) name rows.entries state

/-! ### One store -/

theorem invalidateRows_pooled (stripe : Bytes → Stripe) (handle : CachedStore) (keys : List Bytes)
    (pool : CachePool) (state : σ) :
    invalidateRows (pooled manager stripe) handle keys (pool, state) =
      (.ok (), (pool.invalidateAll stripe handle keys, state)) := by
  induction keys generalizing pool with
  | nil => rfl
  | cons key keys inductionHypothesis =>
      exact (Action.bind_of_ok rfl).trans (inductionHypothesis _)

/-- Acquiring a handle gives one of the store, or fails and changes nothing. -/
theorem store_cases (backend : TableBackend manager) (stripe : Bytes → Stripe)
    {pool : CachePool} {state : σ} (refers : pool.Refers (backend.refer state)) (name : String) :
    (∃ handle adopted, (pooled manager stripe).store name (pool, state) =
        (.ok handle, (adopted, state)) ∧ handle.store = backend.refer state name ∧
        adopted.Refers (backend.refer state)) ∨
      backend.isOpen state = false ∧ ∃ failure, (pooled manager stripe).store name (pool, state) =
        (.error failure, (pool, state)) := by
  cases found : pool.find? name with
  | some handle =>
      exact Or.inl ⟨handle, pool, store_of_found stripe found, refers name handle found, refers⟩
  | none =>
      rcases backend.opens state name with opened | ⟨closed, failure, failed⟩
      · exact Or.inl ⟨_, _, store_of_opened stripe found opened, refers.adopt name⟩
      · exact Or.inr ⟨closed, failure, store_of_unopened stripe found failed⟩

/-- The flush of a store acquires it, writes its rows and drops them from the cache. -/
theorem flushStore_pooled (stripe : Bytes → Stripe) (size : Nat) (name : String)
    (rows : OrderedMap Bytes Mutation) {world : CachePool × σ}
    {adopted : CachePool} {acquiring after : σ} {handle : CachedStore} {outcome : Result Unit}
    (acquired : (pooled manager stripe).store name world = (.ok handle, (adopted, acquiring)))
    (written : writeStore manager size name handle.store rows.entries acquiring =
      (outcome, after)) :
    flushStore (pooled manager stripe) size name rows world =
      (outcome, (adopted.invalidateAll stripe handle rows.keys, after)) := by
  have onWhole : writeStore (pooled manager stripe).manager size name handle.store rows.entries
      (adopted, acquiring) = (outcome, (adopted, after)) := by
    show writeStore (Part.second.manager manager) _ _ _ _ _ = _
    rw [writeStore_run, Part.run_apply]
    show ((writeStore manager size name handle.store rows.entries acquiring).1,
      (adopted, (writeStore manager size name handle.store rows.entries acquiring).2)) = _
    rw [written]
  rw [writeStore, ← Manager.flushRows_eq_writeEach] at onWhole
  rw [flushStore, Action.bind_of_ok (Action.mapError_of_ok acquired)]
  refine (Action.bind_of_ok (Action.outcome_apply _ _)).trans ?_
  rw [onWhole]
  exact Action.bind_of_ok (invalidateRows_pooled stripe handle rows.keys adopted after)

/-- The flush of a store writes its rows, and keeps the handles good. -/
theorem writes_flushStore (backend : TableBackend manager) (stripe : Bytes → Stripe) (size : Nat)
    (name : String) (rows : OrderedMap Bytes Mutation) {world : CachePool × σ}
    (refers : world.1.Refers (backend.refer world.2)) :
    (backend.on .second).Writes (flushStore (pooled manager stripe) size name rows) world
        (StoreCall.batchRows name rows.entries) ∧
      (flushStore (pooled manager stripe) size name rows world).2.1.Refers
        (backend.refer world.2) := by
  obtain ⟨pool, state⟩ := world
  rcases store_cases backend stripe refers name with
    ⟨handle, adopted, acquired, ofStore, stillRefers⟩ | ⟨closed, failure, failed⟩
  · obtain ⟨outcome, after, front, written, result⟩ :=
      writes_writeStore backend size name rows state
    have flushed := flushStore_pooled stripe size name rows acquired (ofStore.symm ▸ written)
    refine ⟨⟨outcome, _, front, flushed, result⟩, ?_⟩
    rw [flushed]
    exact stillRefers.invalidateAll stripe handle rows.keys
  · have stopped : flushStore (pooled manager stripe) size name rows (pool, state) =
        (.error (.persistence name failure), (pool, state)) :=
      Action.bind_of_error (Action.mapError_of_error failed)
    have unsure : ¬ (backend.on .second).progress.sure
        ((backend.on .second).progress.shown (pool, state)) :=
      TableView.unsure_of_closed closed
    refine ⟨.failed stopped unsure, ?_⟩
    rw [stopped]
    exact refers

/-! ### All stores -/

/-- A flush writes the staged rows from the first on, all of them when it succeeds. -/
theorem writes_flush (backend : TableBackend manager) (stripe : Bytes → Stripe) (size : Nat)
    (stores : List (String × OrderedMap Bytes Mutation)) (world : CachePool × σ)
    (refers : world.1.Refers (backend.refer world.2)) :
    (backend.on .second).Writes (flush (pooled manager stripe) size stores) world
      (stores.flatMap fun store => StoreCall.batchRows store.1 store.2.entries) := by
  induction stores generalizing world with
  | nil => exact .nothing world
  | cons store stores inductionHypothesis =>
      obtain ⟨first, stillRefers⟩ :=
        writes_flushStore backend stripe size store.1 store.2 refers
      refine first.andThen fun after ran shown => inductionHypothesis after ?_
      have refer : backend.refer after.2 = backend.refer world.2 := TableView.refer_eq shown
      rw [ran] at stillRefers
      rwa [refer]

/-- A commit is the flush of what is pending. -/
theorem commit_of_running {transaction : Transaction} (running : transaction.state = .running)
    (stores : CachedStores σ) (state : σ) :
    transaction.commit stores state =
      let flushed := flush stores transaction.bufferSize transaction.pending.entries state
      ((flushed.1, transaction.finished flushed.1), flushed.2) := by
  rw [commit, ensureOpen_of_running running]
  rfl

end Transaction

end GraphStore
