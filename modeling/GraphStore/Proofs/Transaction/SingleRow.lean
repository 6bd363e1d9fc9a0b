import GraphStore.Proofs.Transaction.Flush

/-!
Contract: commits that write one row.

Owns the law that a row which is written by itself is written or left alone
(`TableBackend.RowsAtomic`), with a proof for both backends, and the commit of a single row change
(`Transaction.commit_row`): it makes the change when it succeeds, and when it fails the tables are
as they were.
-/

namespace GraphStore

/-! ### Failures that leave the tables alone -/

namespace TableView

variable {σ α β : Type} {view : TableView σ} {action : Action σ α} {state : σ}

def FailsClean (view : TableView σ) (action : Action σ α) (state : σ) : Prop :=
  ∀ failure after, action state = (.error failure, after) → view.tables after = view.tables state

theorem FailsClean.of_eq {other : Action σ α} (same : other state = action state)
    (clean : view.FailsClean action state) : view.FailsClean other state := by
  intro failure after ran
  exact clean failure after (same.symm.trans ran)

/-- An operation that fails only where another one does, and leaves what that leaves. -/
theorem FailsClean.of_outcomes {other : Action σ β} (clean : view.FailsClean action state)
    (succeeds : ∀ {answer left}, action state = (.ok answer, left) →
      ∃ reply, other state = (.ok reply, left))
    (fails : ∀ {failure left}, action state = (.error failure, left) →
      ∃ cause, other state = (.error cause, left)) : view.FailsClean other state := by
  intro failure after ran
  rcases result : action state with ⟨_ | _, left⟩
  · obtain ⟨cause, failed⟩ := fails result
    obtain ⟨-, rfl⟩ := Prod.mk.inj (failed.symm.trans ran)
    exact clean _ _ result
  · obtain ⟨reply, succeeded⟩ := succeeds result
    exact nomatch succeeded.symm.trans ran

theorem FailsClean.mapError (clean : view.FailsClean action state)
    (change : StoreError → StoreError) : view.FailsClean (action.mapError change) state :=
  clean.of_outcomes (fun ran => ⟨_, Action.mapError_of_ok ran⟩)
    fun failed => ⟨_, Action.mapError_of_error failed⟩

/-- What cannot fail does not matter behind an operation. -/
theorem FailsClean.bind_pure (clean : view.FailsClean action state) (answer : α → β) :
    view.FailsClean (action >>= fun found => return (answer found)) state :=
  clean.of_outcomes (fun ran => ⟨_, Action.bind_of_ok ran⟩)
    fun failed => ⟨_, Action.bind_of_error failed⟩

theorem failsClean_of_unchanged (unchanged : (action state).2 = state) :
    view.FailsClean action state := by
  intro failure after ran
  rw [ran] at unchanged
  exact congrArg view.tables unchanged

end TableView

/-- A row that is written by itself is written or left alone. -/
structure TableBackend.RowsAtomic {σ : Type} {manager : Manager σ}
    (backend : TableBackend manager) : Prop where
  mutate : ∀ state name key additions deletions,
    backend.FailsClean (manager.mutate (backend.refer state name) key additions deletions) state
  mutateMany : ∀ state name row,
    backend.FailsClean (manager.mutateMany (Transaction.batch name [row])) state

/-! ### Backends -/

namespace GuardedManager

variable {σ : Type} {manager : Manager σ} {guarded : GuardedManager manager}

/-- Rows are atomic if what a batch does to one store leaves the tables alone where it fails to
write a single row. -/
theorem rowsAtomic (followsStores : guarded.FollowsStores)
    (clean : ∀ state name row, guarded.closed state = false →
      guarded.tableView.FailsClean (guarded.writeStore (name, .ofList [row])) state) :
    (tableBackend followsStores).RowsAtomic where
  mutate state name key additions deletions := by
    cases closed : guarded.closed state with
    | false =>
        refine .of_eq (guarded.mutate_of_open closed _ _ _ _) fun failure after failed => ?_
        exact congrArg Generations.current ((guarded.writes _ _ _ _).unmade failed)
    | true =>
        apply TableView.failsClean_of_unchanged
        exact congrArg Prod.snd ((guarded.refuses closed).mutates _ _ _ _)
  mutateMany state name row := by
    have single : manager.mutateMany (Transaction.batch name [row]) =
        guarded.writeStore (name, .ofList [row]) >>= fun _ => return () := guarded.batches _
    rw [single]
    apply TableView.FailsClean.bind_pure
    cases closed : guarded.closed state with
    | false => exact clean state name row closed
    | true =>
        apply TableView.failsClean_of_unchanged
        exact congrArg Prod.snd (guarded.refusesStore closed name _)

end GuardedManager

/-- In memory a row is written as a whole or not at all. -/
theorem Memory.rowsAtomic : tableBackend.RowsAtomic := by
  refine GuardedManager.rowsAtomic followsStores
    fun memory name row closed failure after failed => ?_
  rw [show guarded.writeStore = writeStore from rfl, writeStore_of_open _ closed] at failed
  exact nomatch congrArg Prod.fst failed

/-- With the log a row is written as a whole or not at all. -/
theorem Embedded.rowsAtomic : tableBackend.RowsAtomic := by
  refine GuardedManager.rowsAtomic followsStores fun embedded name row closed => ?_
  refine .mapError (.of_eq (Action.bind_of_ok (guarded.openStore_of_open closed name)) ?_) _
  refine TableView.FailsClean.bind_pure (fun failure after failed => ?_) _
  exact congrArg Generations.current ((guarded.writes _ _ _ _).unmade failed)

/-! ### Commits -/

namespace Transaction

open CachedStores

variable {σ : Type} {manager : Manager σ}

theorem failsClean_writeStore (backend : TableBackend manager) (atomic : backend.RowsAtomic)
    (size : Nat) (name : String) (row : Bytes × Mutation) (state : σ) :
    backend.FailsClean (writeStore manager size name (backend.refer state name) [row]) state := by
  unfold writeStore
  split
  · have one : chunks size [row] = [[row]] := by
      rw [chunks, List.take_nil, List.drop_nil, chunks]
    rw [one]
    exact ((atomic.mutateMany state name row).mapError (naming name)).bind_pure _
  · exact ((atomic.mutate state name row.1 row.2.addedEntries row.2.deletedColumns).mapError
      (.persistence name)).bind_pure _

/-- The flush of a store with one staged row writes it or leaves the tables alone. -/
theorem failsClean_flushStore (backend : TableBackend manager) (atomic : backend.RowsAtomic)
    (stripe : Bytes → Stripe) (size : Nat) (name : String) {rows : OrderedMap Bytes Mutation}
    {row : Bytes × Mutation} (single : rows.entries = [row]) {world : CachePool × σ}
    (refers : world.1.Refers (backend.refer world.2)) :
    (backend.on .second).FailsClean (flushStore (pooled manager stripe) size name rows) world := by
  obtain ⟨pool, state⟩ := world
  intro failure after ran
  rcases store_cases backend stripe refers name with
    ⟨handle, adopted, acquired, ofStore, -⟩ | ⟨-, refusal, failed⟩
  · rcases written : writeStore manager size name handle.store rows.entries state with
      ⟨outcome, left⟩
    rw [flushStore_pooled stripe size name rows acquired written] at ran
    obtain ⟨rfl, rfl⟩ := Prod.mk.inj ran
    rw [ofStore, single] at written
    exact failsClean_writeStore backend atomic size name row state failure left written
  · have stopped : flushStore (pooled manager stripe) size name rows (pool, state) =
        (.error (.persistence name refusal), (pool, state)) :=
      Action.bind_of_error (Action.mapError_of_error failed)
    rw [stopped] at ran
    obtain ⟨-, rfl⟩ := Prod.mk.inj ran
    rfl

structure RowCommit (backend : TableBackend manager) (change : RowChange)
    (before : CachePool × σ) (outcome : Result Unit) (after : CachePool × σ) : Prop where
  refers : after.1.Refers (backend.refer after.2)
  refer : backend.refer after.2 = backend.refer before.2
  isOpen : backend.isOpen after.2 = backend.isOpen before.2
  made : outcome = .ok () → ∀ store key, Tables.row (backend.tables after.2) store key =
    Tables.row (change.apply (backend.tables before.2)) store key
  unmade : ∀ failure, outcome = .error failure → backend.tables after.2 = backend.tables before.2

/-- A transaction with one row change has nothing pending or that row. -/
theorem pending_single (bufferSize : Nat) (change : RowChange) {staged : Transaction}
    (mutated : (start bufferSize).mutate change.store change.key change.additions
      change.deletions = .ok staged) :
    staged.pending.entries = [] ∨ ∃ rows row, staged.pending.entries = [(change.store, rows)] ∧
      rows.entries = [row] := by
  rcases pending_of_mutate mutated with same | same
  · exact .inl (congrArg OrderedMap.entries same)
  · rw [same]
    exact .inr ⟨_, _, rfl, rfl⟩

theorem flush_single (stores : CachedStores σ) (size : Nat) (name : String)
    (rows : OrderedMap Bytes Mutation) (state : σ) :
    flush stores size [(name, rows)] state = flushStore stores size name rows state := by
  unfold flush
  rcases ran : flushStore stores size name rows state with ⟨_ | _, after⟩
  · exact Action.bind_of_error ran
  · exact Action.bind_of_ok ran

/-- A row change that is committed by itself is made when the commit succeeds, and leaves the tables
alone when it fails. -/
theorem commit_row (backend : TableBackend manager) (atomic : backend.RowsAtomic)
    (stripe : Bytes → Stripe) (bufferSize : Nat) (change : RowChange) {before : CachePool × σ}
    (refers : before.1.Refers (backend.refer before.2)) :
    ∃ staged outcome ended after,
      (start bufferSize).mutate change.store change.key change.additions change.deletions =
        .ok staged ∧
      staged.commit (pooled manager stripe) before = ((outcome, ended), after) ∧
      RowCommit backend change before outcome after := by
  have running : (start bufferSize).state = .running := rfl
  obtain ⟨staged, mutated, stages⟩ := mutate_of_running running change
  obtain ⟨outcome, after, front, flushed, -, shown, complete, -⟩ :=
    writes_flush backend stripe staged.bufferSize staged.pending.entries before refers
  refine ⟨staged, outcome, staged.finished outcome, after, mutated, ?_, ?_⟩
  · rw [commit_of_running stages.running, flushed]
  have refer : backend.refer after.2 = backend.refer before.2 := TableView.refer_eq shown
  have kept : after.1.Refers (backend.refer before.2) ∧
      ∀ failure, outcome = .error failure →
        backend.tables after.2 = backend.tables before.2 := by
    rcases pending_single bufferSize change mutated with none | ⟨rows, row, one, single⟩
    · rw [none] at flushed
      obtain ⟨rfl, rfl⟩ := Prod.mk.inj flushed
      exact ⟨refers, nofun⟩
    · rw [one, flush_single] at flushed
      have stillRefers :=
        (writes_flushStore backend stripe staged.bufferSize change.store rows refers).2
      have clean := failsClean_flushStore backend atomic stripe staged.bufferSize change.store
        single refers
      rw [flushed] at stillRefers
      refine ⟨stillRefers, ?_⟩
      intro failure failed
      exact clean failure after (failed ▸ flushed)
  constructor
  · rw [refer]
    exact kept.1
  · exact refer
  · exact TableView.isOpen_eq shown
  · intro succeeded store key
    have tables : backend.tables after.2 = Log.applyAll (StoreMutations.rowChanges staged.pending)
        (backend.tables before.2) := by
      rw [StoreMutations.rowChanges, ← complete succeeded]
      exact TableView.tables_eq shown
    rw [tables, StoreMutations.row_rowChanges, stages.row_mutationOf]
    rfl
  · exact kept.2

end Transaction

end GraphStore
