import GraphStore.Proofs.Transaction.Flush

/-!
Contract: a commit does what its calls would have done without a transaction.

Owns direct runs of row changes, managers that note the batches they are given, and the two
facts about a commit: when it succeeds, every store holds what the calls leave in it one by one
(`commit_eq_direct`), whatever the buffer size and the way of writing; and its batches are those
of `Transaction.batches`, from the first on.
-/

namespace GraphStore

/-! ### Direct runs -/

def RowChange.call (change : RowChange) : StoreCall :=
  .mutate change.store change.key change.additions change.deletions

namespace TableBackend

variable {σ : Type} {manager : Manager σ}

/-- Calls that all succeed leave what they are told to write. -/
theorem tables_performAll (backend : TableBackend manager) (changes : List RowChange) (state : σ)
    (succeeded : ∀ reply ∈ (StoreCall.performAll manager (changes.map RowChange.call) state).1,
      reply = .ok .done) :
    backend.tables (StoreCall.performAll manager (changes.map RowChange.call) state).2 =
      Log.applyAll changes (backend.tables state) := by
  induction changes generalizing state with
  | nil => rfl
  | cons change changes inductionHypothesis =>
      rcases performed : change.call.perform manager state with ⟨reply, after⟩
      rw [List.map_cons, StoreCall.performAll, performed] at succeeded ⊢
      obtain ⟨replied, others⟩ := List.forall_mem_cons.1 succeeded
      have applied : backend.tables after = change.apply (backend.tables state) := by
        rcases backend.opens state change.store with opened | ⟨-, failure, failed⟩
        · rcases written : manager.mutate (backend.refer state change.store) change.key
            change.additions change.deletions state with ⟨outcome, left⟩
          cases outcome with
          | ok done =>
              have answered : change.call.perform manager state = (.ok .done, left) :=
                (Action.bind_of_ok opened).trans (Action.bind_of_ok written)
              rw [answered] at performed
              rw [← (Prod.mk.inj performed).2]
              exact TableView.tables_eq ((backend.mutates state change.store change.key
                change.additions change.deletions).shown_of_ok written)
          | error failure =>
              have answered : change.call.perform manager state = (.error failure, left) :=
                (Action.bind_of_ok opened).trans (Action.bind_of_error written)
              rw [answered] at performed
              cases (Prod.mk.inj performed).1.trans replied
        · have answered : change.call.perform manager state = (.error failure, state) :=
            Action.bind_of_error failed
          rw [answered] at performed
          cases (Prod.mk.inj performed).1.trans replied
      exact (inductionHypothesis after others).trans (congrArg _ applied)

end TableBackend

/-! ### Batches that are sent -/

namespace Manager

variable {σ : Type}

/-- The manager that also notes the batches it is given, taken or not. -/
def recording (manager : Manager σ) : Manager (List StoreMutations × σ) :=
  { Part.second.manager manager with
    mutateMany := fun mutations => Action.of fun world =>
      let (outcome, after) := manager.mutateMany mutations world.2
      (outcome, (world.1 ++ [mutations], after)) }

end Manager

namespace Transaction

open CachedStores

variable {σ : Type} {manager : Manager σ}

def notes {τ : Type} (noted : τ → List StoreMutations) : Progress τ StoreMutations where
  Shown := List StoreMutations
  shown := noted
  advance sent before := before ++ sent
  advance_nil := List.append_nil
  advance_append front back before := (List.append_assoc before front back).symm
  sure _ := False
  sure_advance _ _ never := never

theorem sends_flushBatches (name : String) (parts : List (List (Bytes × Mutation)))
    (world : List StoreMutations × σ) :
    (notes Prod.fst).Follows (flushBatches manager.recording name parts) world
      (parts.map (batch name)) := by
  induction parts generalizing world with
  | nil => exact .nothing world
  | cons rows parts inductionHypothesis =>
      have first : (notes Prod.fst).Follows (manager.recording.mutateMany (batch name rows)) world
          [batch name rows] :=
        ⟨_, _, [batch name rows], rfl, List.prefix_refl _, rfl, fun _ => rfl, nofun⟩
      exact (first.mapError (naming name)).andThen fun after _ _ => inductionHypothesis after

theorem sends_flushStore (batching : manager.features.batchMutation = true)
    (stripe : Bytes → Stripe) (size : Nat) (name : String) (rows : OrderedMap Bytes Mutation)
    (world : CachePool × List StoreMutations × σ) :
    (notes fun world => world.2.1).Follows
      (flushStore (pooled manager.recording stripe) size name rows) world
      ((chunks size rows.entries).map (batch name)) := by
  have noted : ((pooled manager.recording stripe).store name world).2.2.1 = world.2.1 :=
    keeps_store stripe (fun _ _ => rfl) name world
  rcases acquired : (pooled manager.recording stripe).store name world with
    ⟨_ | handle, adopted, acquiring⟩
  · rename_i failure
    rw [acquired] at noted
    refine ⟨_, _, [], Action.bind_of_error (Action.mapError_of_error acquired), List.nil_prefix,
      ?_, nofun, nofun⟩
    exact noted.trans (List.append_nil _).symm
  · rw [acquired] at noted
    have sends : (notes Prod.fst).Follows
        (flushBatches manager.recording name (chunks size rows.entries)) acquiring
        ((chunks size rows.entries).map (batch name)) :=
      sends_flushBatches name (chunks size rows.entries) acquiring
    obtain ⟨outcome, after, sent, written, isFront, shown, complete, -⟩ := sends
    have ofStore : writeStore manager.recording size name handle.store rows.entries acquiring =
        (outcome, after) := by
      rw [writeStore, if_pos (show manager.recording.features.batchMutation = true from batching)]
      exact written
    refine ⟨outcome, _, sent, flushStore_pooled stripe size name rows acquired ofStore, isFront,
      ?_, complete, nofun⟩
    exact shown.trans (congrArg (· ++ sent) noted)

/-- In batch mode a flush sends the batches of what is pending, up to the first failure. -/
theorem sends_flush (batching : manager.features.batchMutation = true) (stripe : Bytes → Stripe)
    (size : Nat) (pending : StoreMutations) (world : CachePool × List StoreMutations × σ) :
    (notes fun world => world.2.1).Follows
      (flush (pooled manager.recording stripe) size pending.entries) world
      (batches size pending) := by
  rw [batches]
  induction pending.entries generalizing world with
  | nil => exact .nothing world
  | cons store stores inductionHypothesis =>
      exact (sends_flushStore batching stripe size store.1 store.2 world).andThen
        fun after _ _ => inductionHypothesis after

/-! ### Commits -/

/-- The later state holds what the calls leave in the earlier one, by their meaning on tables and as
the manager itself leaves it when it takes them one by one. -/
def LeavesDirect (backend : TableBackend manager) (calls : List RowChange) (before after : σ) :
    Prop :=
  Tables.Agree (backend.tables after) (Log.applyAll calls (backend.tables before)) ∧
    ((∀ reply ∈ (StoreCall.performAll manager (calls.map RowChange.call) before).1,
        reply = .ok .done) →
      Tables.Agree (backend.tables after)
        (backend.tables (StoreCall.performAll manager (calls.map RowChange.call) before).2))

/-- The batches of a commit: each of one store and within the buffer size. Those of a successful
commit carry each staged row once, in as few batches as the buffer size allows. -/
structure SentRows (bufferSize : Nat) (pending : StoreMutations) (outcome : Result Unit)
    (sent : List StoreMutations) : Prop where
  ofOneStore : ∀ mutations ∈ sent, OfOneStore bufferSize mutations
  rows : outcome = .ok () → ∀ store, sent.flatMap (carried store) = carried store pending
  count : outcome = .ok () → ∀ store,
    (sent.filter fun mutations => mutations.contains store).length =
      ((carried store pending).length + (max 1 bufferSize - 1)) / max 1 bufferSize

theorem Stages.leavesDirect {transaction : Transaction} {bufferSize : Nat}
    {calls : List RowChange} (stages : (start bufferSize).Stages calls transaction)
    (backend : TableBackend manager) {before after : σ} (tidy : (backend.tables before).Tidy)
    (flushed : backend.tables after =
      Log.applyAll (StoreMutations.rowChanges transaction.pending) (backend.tables before)) :
    LeavesDirect backend calls before after := by
  have agree : Tables.Agree (backend.tables after)
      (Log.applyAll calls (backend.tables before)) := by
    rw [flushed]
    exact stages.agree tidy
  refine ⟨agree, fun replied => ?_⟩
  rw [backend.tables_performAll calls before replied]
  exact agree

/-- A successful commit leaves what its calls leave when they are made one by one, for every buffer
size, in batches or row by row, with either batch change; and an open backend that takes every
write takes the commit. In batch mode every staged row is sent once, in batches of one store
within the buffer size. -/
theorem commit_eq_direct (backend : TableBackend manager) (stripe : Bytes → Stripe)
    (calls : List RowChange) (bufferSize : Nat) (batching rowByRow : Bool) (pool : CachePool)
    (state : σ) (refers : pool.Refers (backend.refer state)) (tidy : (backend.tables state).Tidy) :
    ∃ transaction, (start bufferSize).stageAll calls = .ok transaction ∧
      (∃ outcome ended after,
        transaction.commit (pooled (manager.configured batching rowByRow) stripe) (pool, state) =
            ((outcome, ended), after) ∧
          (outcome = .ok () → LeavesDirect backend calls state after.2) ∧
          (backend.reliable → backend.isOpen state = true → outcome = .ok ())) ∧
      (batching = true → ∀ noted, ∃ outcome ended pool' sent after,
        transaction.commit (pooled (manager.configured batching rowByRow).recording stripe)
            (pool, noted, state) = ((outcome, ended), (pool', noted ++ sent, after)) ∧
          SentRows bufferSize transaction.pending outcome sent) := by
  obtain ⟨transaction, staged, stages⟩ := stageAll_start bufferSize calls
  refine ⟨transaction, staged, ?_, fun inBatches noted => ?_⟩
  · obtain ⟨outcome, after, front, flushed, -, shown, complete, succeeds⟩ :=
      writes_flush (backend.configured batching rowByRow) stripe transaction.bufferSize
        transaction.pending.entries (pool, state) refers
    refine ⟨outcome, transaction.finished outcome, after, ?_, fun succeeded => ?_,
      fun reliable isOpen => succeeds ⟨reliable, isOpen⟩⟩
    · rw [commit_of_running stages.running, flushed]
    · obtain rfl := complete succeeded
      exact stages.leavesDirect backend tidy (TableView.tables_eq shown)
  · have batches : (manager.configured batching rowByRow).features.batchMutation = true := inBatches
    obtain ⟨outcome, ⟨pool', noted', after⟩, sent, flushed, isFront, shown, complete, -⟩ :=
      sends_flush batches stripe transaction.bufferSize transaction.pending (pool, noted, state)
    obtain rfl : noted' = noted ++ sent := shown
    have size : max 1 transaction.bufferSize = max 1 bufferSize := by
      have kept : transaction.bufferSize = max bufferSize 1 := stages.bufferSize
      omega
    refine ⟨outcome, transaction.finished outcome, pool', sent, after, ?_, ?_⟩
    · rw [commit_of_running stages.running, flushed]
    · refine ⟨fun mutations member => ?_, fun succeeded store => ?_, fun succeeded store => ?_⟩
      · have ofOneStore := ofOneStore_of_mem_batches (isFront.subset member)
        rwa [OfOneStore, size] at ofOneStore
      · rw [complete succeeded, flatMap_carried_batches]
      · rw [complete succeeded, length_filter_batches, size]

/-- A backend in memory with two rows of one store. -/
def twoRows : Memory :=
  ⟨.ofTables (Log.applyAll [⟨"s", [1], [⟨[1], [7]⟩, ⟨[2], [8]⟩], []⟩, ⟨"s", [2], [⟨[1], [9]⟩], []⟩]
    .empty), false⟩

/-- Calls that add and delete one column again and again, in two stores. -/
def repeatedColumns : List RowChange :=
  [⟨"s", [1], [⟨[1], [3]⟩], [[1]]⟩, ⟨"t", [1], [⟨[5], [5]⟩], []⟩, ⟨"s", [1], [], [[1], [2]]⟩,
    ⟨"s", [2], [], [[1]]⟩, ⟨"s", [3], [⟨[1], [4]⟩, ⟨[1], [6]⟩], []⟩, ⟨"s", [1], [⟨[2], [0]⟩], []⟩,
    ⟨"s", [4], [], []⟩]

theorem commit_eq_direct_repeatedColumns :
    ((CachePool.empty 4).Refers (Memory.tableBackend.refer twoRows) ∧
        (Memory.tableBackend.tables twoRows).Tidy) ∧
      ∃ transaction ended after, (start 2).stageAll repeatedColumns = .ok transaction ∧
        transaction.commit (pooled (Memory.manager.configured true false) Stripe.ofKey)
            (.empty 4, twoRows) = ((.ok (), ended), after) ∧
          LeavesDirect Memory.tableBackend repeatedColumns twoRows after.2 := by
  have refers : (CachePool.empty 4).Refers (Memory.tableBackend.refer twoRows) :=
    CachePool.refers_empty 4
  have tidy : (Memory.tableBackend.tables twoRows).Tidy := Tables.tidy_empty.applyAll _
  obtain ⟨transaction, staged, ⟨outcome, ended, after, committed, leaves, succeeds⟩, -⟩ :=
    commit_eq_direct Memory.tableBackend Stripe.ofKey repeatedColumns 2 true false _ twoRows refers
      tidy
  obtain rfl := succeeds trivial rfl
  exact ⟨⟨refers, tidy⟩, transaction, ended, after, staged, committed, leaves rfl⟩

end Transaction

end GraphStore
