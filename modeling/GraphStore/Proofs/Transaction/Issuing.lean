import GraphStore.Proofs.Counting
import GraphStore.Proofs.Transaction.Flush

/-!
Contract: which writes a commit issues.

Owns the manager that counts the writes it is given (`Manager.counting`) and the invariant that
nothing empty is staged (`StoreMutations.Filled`), which every call of a transaction keeps. With it
a transaction has modifications just when its commit, if it gets hold of the first staged store,
issues a write (`Transaction.issues_nothing_iff`).
-/

namespace GraphStore

/-! ### Nothing empty is staged -/

namespace Mutation

variable {mutation : Mutation}

theorem isEmpty_add (mutation : Mutation) (entry : Entry) :
    (mutation.add entry).isEmpty = false := by
  rw [isEmpty, add, OrderedMap.isEmpty_insert, Bool.false_and]

theorem isEmpty_delete (mutation : Mutation) (column : Bytes) :
    (mutation.delete column).isEmpty = false := by
  rw [isEmpty, delete, OrderedMap.isEmpty_insert, Bool.and_false]

theorem isEmpty_foldl_add (filled : mutation.isEmpty = false) (additions : List Entry) :
    (additions.foldl add mutation).isEmpty = false := by
  induction additions generalizing mutation with
  | nil => exact filled
  | cons entry additions inductionHypothesis => exact inductionHypothesis (isEmpty_add _ entry)

theorem isEmpty_foldl_delete (filled : mutation.isEmpty = false) (deletions : List Bytes) :
    (deletions.foldl delete mutation).isEmpty = false := by
  induction deletions generalizing mutation with
  | nil => exact filled
  | cons column deletions inductionHypothesis => exact inductionHypothesis (isEmpty_delete _ column)

/-- Something is staged where there is an addition or a deletion to stage. -/
theorem isEmpty_stage (mutation : Mutation) {additions : List Entry} {deletions : List Bytes}
    (some : ¬ (additions.isEmpty && deletions.isEmpty) = true) :
    (mutation.stage additions deletions).isEmpty = false := by
  rw [stage]
  cases additions with
  | cons entry additions => exact isEmpty_foldl_add (isEmpty_add _ entry) additions
  | nil =>
      cases deletions with
      | cons column deletions => exact isEmpty_foldl_delete (isEmpty_delete _ column) deletions
      | nil => exact absurd rfl some

theorem isEmpty_merge (earlier : Mutation) {later : Mutation} (filled : later.isEmpty = false) :
    (earlier.merge later).isEmpty = false := by
  apply isEmpty_stage
  rw [addedEntries, deletedColumns, OrderedMap.keys, List.isEmpty_map, List.isEmpty_map]
  exact Bool.eq_false_iff.1 filled

end Mutation

namespace StoreMutations

/-- Each store has a row, and each row a change. -/
structure Filled (pending : StoreMutations) : Prop where
  rows : ∀ name rows, pending.find? name = some rows → rows.isEmpty = false
  changes : ∀ name rows, pending.find? name = some rows → ∀ key mutation,
    rows.find? key = some mutation → mutation.isEmpty = false

theorem filled_empty : Filled .empty := ⟨nofun, nofun⟩

/-- A row with a change to stage keeps everything staged filled. -/
theorem Filled.stageRow {pending : StoreMutations} (filled : Filled pending) (store : String)
    (row : Bytes) {later : Mutation} (some : later.isEmpty = false) :
    Filled (Transaction.stageRow pending store row later) := by
  constructor
  · intro name rows found
    rw [Transaction.stageRow, OrderedMap.find?_insert] at found
    split at found
    · rw [← Option.some.inj found]
      exact OrderedMap.isEmpty_insert _ row _
    · exact filled.rows name rows found
  · intro name rows found key mutation staged
    rw [Transaction.stageRow, OrderedMap.find?_insert] at found
    split at found
    · rw [← Option.some.inj found, OrderedMap.find?_insert] at staged
      split at staged
      · rw [← Option.some.inj staged]
        exact Mutation.isEmpty_merge _ some
      · cases before : pending.find? store with
        | none =>
            rw [OrderedMap.findD, before] at staged
            cases staged
        | some others =>
            rw [OrderedMap.findD, before] at staged
            exact filled.changes store others before key mutation staged
    · exact filled.changes name rows found key mutation staged

end StoreMutations

/-! ### Writes that are counted -/

/-- The manager that counts the calls which may change its stores. -/
def Manager.counting {σ : Type} (manager : Manager σ) : Manager (Nat × σ) :=
  { Part.second.manager manager with
    mutate := fun store key additions deletions =>
      (manager.mutate store key additions deletions).counted
    compareAndSwap := fun store key column expected new =>
      (manager.compareAndSwap store key column expected new).counted
    mutateMany := fun mutations => (manager.mutateMany mutations).counted
    clearStorage := manager.clearStorage.counted }

/-- What comes behind an operation takes back nothing of its count. -/
theorem Action.le_bind {σ α β : Type} (count : σ → Nat) (first : Action σ α)
    {next : α → Action σ β} (rises : ∀ answer state, count state ≤ count (next answer state).2)
    (state : σ) : count (first state).2 ≤ count ((first >>= next) state).2 := by
  rcases ran : first state with ⟨failure | answer, after⟩
  · exact Nat.le_of_eq (by rw [bind_of_error ran])
  · rw [bind_of_ok ran]
    exact rises answer after

/-- The operation takes back nothing of the count, and adds to it if it has something to do. -/
def Action.Counts {σ α : Type} (filled : Prop) (action : Action (Nat × σ) α) : Prop :=
  ∀ world, world.1 ≤ (action world).2.1 ∧ (filled → world.1 < (action world).2.1)

/-- An operation that begins with a counted one adds to the count. -/
theorem Action.Counts.behind {σ α β : Type} (rename : StoreError → StoreError)
    (first : Action σ α) {next : Action (Nat × σ) β} {later filled : Prop}
    (counts : next.Counts later) :
    (first.counted.mapError rename >>= fun _ => next).Counts filled := by
  intro world
  have counted : (first.counted.mapError rename world).2.1 = world.1 + 1 := by
    rw [mapError, Action.counted, Action.of]
    rcases (first world.2).1 with failure | answer <;> rfl
  have rises := le_bind Prod.fst (first.counted.mapError rename)
    (fun _ after => (counts after).1) world
  rw [counted] at rises
  exact ⟨Nat.le_of_lt rises, fun _ => rises⟩

namespace Transaction

open CachedStores

/-- Where nothing empty is staged, no modifications means that nothing is staged. -/
theorem hasModifications_eq_false {transaction : Transaction}
    (filled : StoreMutations.Filled transaction.pending) :
    transaction.hasModifications = false ↔ transaction.pending.entries = [] := by
  constructor
  · intro none
    rcases stores : transaction.pending.entries with _ | ⟨⟨name, rows⟩, others⟩
    · rfl
    · have found : transaction.pending.find? name = some rows :=
        OrderedMap.find?_eq_some_iff.2 (stores ▸ List.mem_cons_self)
      have someRows := filled.rows name rows found
      rcases entries : rows.entries with _ | ⟨⟨key, mutation⟩, further⟩
      · rw [OrderedMap.isEmpty, entries] at someRows
        exact nomatch someRows
      · have staged : rows.find? key = some mutation :=
          OrderedMap.find?_eq_some_iff.2 (entries ▸ List.mem_cons_self)
        have change := filled.changes name rows found key mutation staged
        rw [hasModifications, OrderedMap.values, stores, List.map_cons, List.any_cons,
          OrderedMap.values, entries, List.map_cons, List.any_cons, change] at none
        exact nomatch none
  · intro none
    rw [hasModifications, OrderedMap.values, none]
    rfl

/-- A running transaction takes every call and stages nothing empty. -/
theorem mutate_filled {transaction : Transaction} (running : transaction.state = .running)
    (store : String) (key : Bytes) (additions : List Entry) (deletions : List Bytes) :
    ∃ after, transaction.mutate store key additions deletions = .ok after ∧
      after.state = .running ∧
      (StoreMutations.Filled transaction.pending → StoreMutations.Filled after.pending) := by
  rw [mutate_eq_of_running running]
  split
  · exact ⟨transaction, rfl, running, id⟩
  · rename_i some
    exact ⟨_, rfl, running, fun filled =>
      filled.stageRow store key (Mutation.isEmpty_stage _ some)⟩

section Counting

variable {σ : Type} (manager : Manager σ)

/-- The first of some batches is counted at least. -/
theorem count_flushBatches (name : String) (parts : List (List (Bytes × Mutation))) :
    (flushBatches manager.counting name parts).Counts (parts ≠ []) := by
  induction parts with
  | nil => exact fun _ => ⟨Nat.le_refl _, absurd rfl⟩
  | cons rows parts inductionHypothesis =>
      exact inductionHypothesis.behind (naming name) (manager.mutateMany (batch name rows))

theorem count_writeEach (rename : StoreError → StoreError) (store : StoreRef)
    (rows : List (Bytes × Mutation)) :
    (manager.counting.writeEach rename store rows).Counts (rows ≠ []) := by
  induction rows with
  | nil => exact fun _ => ⟨Nat.le_refl _, absurd rfl⟩
  | cons row rows inductionHypothesis =>
      exact inductionHypothesis.behind rename
        (manager.mutate store row.1 row.2.addedEntries row.2.deletedColumns)

theorem count_writeStore (size : Nat) (name : String) (store : StoreRef)
    (rows : List (Bytes × Mutation)) :
    (writeStore manager.counting size name store rows).Counts (rows ≠ []) := by
  rw [writeStore]
  split
  · intro world
    have batches := count_flushBatches manager name (chunks size rows) world
    refine ⟨batches.1, fun filled => batches.2 fun none => filled ?_⟩
    rw [← flatten_chunks size rows, none]
    rfl
  · exact count_writeEach manager _ store rows

variable (stripe : Bytes → Stripe)

/-- The flush of a store that is acquired issues a write, if there is a row. -/
theorem count_flushStore (size : Nat) (name : String) (rows : OrderedMap Bytes Mutation)
    (world : CachePool × Nat × σ) :
    world.2.1 ≤ (flushStore (pooled manager.counting stripe) size name rows world).2.2.1 ∧
      (rows.isEmpty = false → ∀ handle acquired,
        (pooled manager.counting stripe).store name world = (.ok handle, acquired) →
        world.2.1 < (flushStore (pooled manager.counting stripe) size name rows world).2.2.1) := by
  have kept : ((pooled manager.counting stripe).store name world).2.2.1 = world.2.1 :=
    keeps_store stripe (fun _ _ => rfl) name world
  rcases ran : (pooled manager.counting stripe).store name world with
    ⟨failure | handle, adopted, acquiring⟩
  · rw [ran] at kept
    rw [flushStore, Action.bind_of_error (Action.mapError_of_error ran)]
    exact ⟨Nat.le_of_eq kept.symm, fun _ _ _ acquired => by cases acquired⟩
  · rw [ran] at kept
    have issued := count_writeStore manager size name handle.store rows.entries acquiring
    rw [flushStore_pooled stripe size name rows ran rfl, ← kept]
    refine ⟨issued.1, fun filled _ _ _ => issued.2 fun none => ?_⟩
    rw [OrderedMap.isEmpty, none] at filled
    cases filled

theorem count_flush (size : Nat) (stores : List (String × OrderedMap Bytes Mutation))
    (world : CachePool × Nat × σ) :
    world.2.1 ≤ (flush (pooled manager.counting stripe) size stores world).2.2.1 := by
  induction stores generalizing world with
  | nil => exact Nat.le_refl _
  | cons store stores inductionHypothesis =>
      exact Nat.le_trans (count_flushStore manager stripe size store.1 store.2 world).1
        (Action.le_bind (fun world => world.2.1) _ (fun _ after => inductionHypothesis after) world)

/-- The first staged store cannot be acquired. -/
def Unreached (transaction : Transaction) (stores : CachedStores (CachePool × Nat × σ))
    (world : CachePool × Nat × σ) : Prop :=
  ∃ name rows others failure after, transaction.pending.entries = (name, rows) :: others ∧
    stores.store name world = (.error failure, after)

theorem count_flush_cons (size : Nat) (name : String) (rows : OrderedMap Bytes Mutation)
    (filled : rows.isEmpty = false) (others : List (String × OrderedMap Bytes Mutation))
    (world : CachePool × Nat × σ) :
    (flush (pooled manager.counting stripe) size ((name, rows) :: others) world).2.2.1 =
        world.2.1 ↔
      ∃ failure after, (pooled manager.counting stripe).store name world =
        (.error failure, after) := by
  have issued := (count_flushStore manager stripe size name rows world).2 filled
  have others := Action.le_bind (fun world => world.2.1)
    (flushStore (pooled manager.counting stripe) size name rows)
    (fun _ after => count_flush manager stripe size others after) world
  have kept : ((pooled manager.counting stripe).store name world).2.2.1 = world.2.1 :=
    keeps_store stripe (fun _ _ => rfl) name world
  rcases ran : (pooled manager.counting stripe).store name world with ⟨failure | handle, after⟩
  · have stopped : flushStore (pooled manager.counting stripe) size name rows world =
        (.error (.persistence name failure), after) :=
      Action.bind_of_error (Action.mapError_of_error ran)
    rw [ran] at kept
    rw [flush, Action.bind_of_error stopped]
    exact ⟨fun _ => ⟨failure, after, rfl⟩, fun _ => kept⟩
  · have counted := Nat.lt_of_lt_of_le (issued handle after ran) others
    exact ⟨fun same => absurd (same ▸ counted) (Nat.lt_irrefl _), nofun⟩

/-- The commit of a running transaction issues no write if there are no modifications, or if the
first staged store cannot be acquired, and otherwise it issues one. -/
theorem issues_nothing_iff {transaction : Transaction} (running : transaction.state = .running)
    (filled : StoreMutations.Filled transaction.pending) (world : CachePool × Nat × σ) :
    (transaction.commit (pooled manager.counting stripe) world).2.2.1 = world.2.1 ↔
      transaction.hasModifications = false ∨
        transaction.Unreached (pooled manager.counting stripe) world := by
  rw [commit_of_running running, hasModifications_eq_false filled, Unreached]
  dsimp only
  rcases stores : transaction.pending.entries with _ | ⟨⟨name, rows⟩, others⟩
  · exact ⟨fun _ => .inl rfl, fun _ => rfl⟩
  · have someRows : rows.isEmpty = false :=
      filled.rows name rows (OrderedMap.find?_eq_some_iff.2 (stores ▸ List.mem_cons_self))
    rw [count_flush_cons manager stripe _ name rows someRows others world]
    constructor
    · rintro ⟨failure, after, ran⟩
      exact .inr ⟨name, rows, others, failure, after, rfl, ran⟩
    · rintro (none | ⟨_, _, _, failure, after, same, ran⟩)
      · exact nomatch none
      · obtain ⟨rfl, rfl⟩ := Prod.mk.inj (List.cons.inj same).1
        exact ⟨failure, after, ran⟩

end Counting

end Transaction

end GraphStore
