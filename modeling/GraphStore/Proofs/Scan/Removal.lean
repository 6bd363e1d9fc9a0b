import GraphStore.Proofs.Scan.Steady
import GraphStore.Proofs.Transaction.SingleRow
import GraphStore.Scan.Removal

/-!
Contract: removing an index does what a scan expects of its job.

Owns what the job does to one row (`IndexRemoval.process_result`): the commit takes the columns that
it is given out of the row, or fails and leaves the row alone. From this follow the laws of jobs
(`IndexRemoval.work`) and the values of the counters (`IndexRemoval.counts_deletes`,
`IndexRemoval.counts_failedTransactions`).
-/

namespace GraphStore

@[simp] theorem ScanMetrics.get_add (metrics : ScanMetrics) (name : String) (count : UInt64)
    (other : String) :
    (metrics.add name count).get other =
      if other = name then metrics.get name + count else metrics.get other := by
  unfold add get OrderedMap.findD
  rw [OrderedMap.find?_insert]
  split <;> rfl

/-! ### Transactions of index jobs -/

namespace IndexJobContext

variable {σ : Type} (context : IndexJobContext σ)

/-- Only a failure is counted, and it adds to no total of the scan. -/
theorem inTransaction_metrics (stage : Transaction → Result Transaction) (metered : Metered σ) :
    (context.inTransaction stage metered).2.metrics =
      match (context.inTransaction stage metered).1 with
      | .ok () => metered.metrics
      | .error _ => metered.metrics.add failedTransactions 1 := by
  unfold inTransaction
  cases stage (Transaction.start context.bufferSize) with
  | error failure => rfl
  | ok transaction =>
      dsimp only
      rcases transaction.commit context.stores metered.world with ⟨⟨_ | _, ended⟩, after⟩ <;> rfl

theorem commitCounting_apply (counter : String) (count : Nat)
    (stage : Transaction → Result Transaction) (metered : Metered σ) :
    context.commitCounting counter count stage metered =
      match context.inTransaction stage metered with
      | (.error failure, after) => (.failed failure, after)
      | (.ok (), after) =>
        (.done, after.count fun metrics => metrics.add counter (UInt64.ofNat count)) := by
  rcases ran : context.inTransaction stage metered with ⟨_ | _, after⟩ <;>
    simp only [commitCounting, bind, StateT.bind, ran] <;> rfl

/-- The surroundings of index jobs on a backend with a pool of caches beside it. -/
def pooled (manager : Manager σ) (stripe : Bytes → Stripe) (bufferSize : Nat) (schema : Schema)
    (options : IndexOptions) : IndexJobContext (CachePool × σ) where
  stores := .pooled manager stripe
  bufferSize := bufferSize
  schema _ := schema
  options := options

variable {manager : Manager σ} (stripe : Bytes → Stripe) (bufferSize : Nat) (schema : Schema)
  (options : IndexOptions)

/-- One row change in a transaction of its own. -/
theorem inTransaction_row (backend : TableBackend manager) (atomic : backend.RowsAtomic)
    (change : RowChange) {metered : Metered (CachePool × σ)}
    (refers : metered.world.1.Refers (backend.refer metered.world.2)) :
    ∃ outcome after,
      (pooled manager stripe bufferSize schema options).inTransaction
          (fun transaction => transaction.mutate change.store change.key change.additions
            change.deletions) metered = (outcome, after) ∧
        Transaction.RowCommit backend change metered.world outcome after.world := by
  obtain ⟨staged, outcome, ended, after, mutated, committed, result⟩ :=
    Transaction.commit_row backend atomic stripe bufferSize change refers
  unfold inTransaction pooled
  dsimp only
  rw [mutated]
  dsimp only
  rw [committed]
  cases outcome with
  | ok done => exact ⟨_, _, rfl, result⟩
  | error failure => exact ⟨_, _, rfl, result⟩

end IndexJobContext

/-- A scanner on a backend with a pool of caches beside it, which nobody cancels. -/
def Scanner.pooled {σ : Type} (manager : Manager σ) (options : ScanOptions) :
    Scanner (CachePool × σ) :=
  ⟨Part.second.manager manager, options, fun _ => false⟩

def ScanBackend.pooledStore {σ : Type} {manager : Manager σ} (backend : ScanBackend manager)
    (options : ScanOptions) (name : String) (reference : StoreRef) :
    ScanStore (Scanner.pooled manager options) reference :=
  backend.scanStore .second options (fun _ => false) name reference fun whole =>
    whole.1.Refers (backend.refer whole.2)

namespace IndexRemoval

def columns (slices : RowSlices) : List Bytes :=
  slices.flatMap fun slice => slice.2.map Entry.column

/-- A row loses the columns that the job was given, or the work on it fails. -/
def changes : RowChanges := fun _ slices ending before after =>
  ending = .done ∧ (∀ column, after.find? column =
    if column ∈ columns slices then none else before.find? column) ∨
  (∃ failure, ending = .failed failure) ∧ after = before

variable {σ : Type} {manager : Manager σ}

/-! ### The work on a row -/

theorem process_apply (context : IndexJobContext σ) (target : RemovalTarget) (key : Bytes)
    (slices : RowSlices) (metered : Metered σ) :
    process context (some target) key slices metered =
      if (columns slices).isEmpty then (.done, metered)
      else context.commitCounting deletes (columns slices).length
        (fun transaction => transaction.mutate target.store key [] (columns slices)) metered := by
  unfold process columns
  dsimp only
  split <;> rfl

theorem process_metrics (context : IndexJobContext σ) (target : RemovalTarget) (key : Bytes)
    (slices : RowSlices) (metered : Metered σ) :
    (process context (some target) key slices metered).2.metrics =
      if (columns slices).isEmpty then metered.metrics
      else if (process context (some target) key slices metered).1 = .done then
        metered.metrics.add deletes (UInt64.ofNat (columns slices).length)
      else metered.metrics.add IndexJobContext.failedTransactions 1 := by
  rw [process_apply]
  split
  · rfl
  · rw [IndexJobContext.commitCounting_apply]
    have counted := context.inTransaction_metrics
      (fun transaction => transaction.mutate target.store key [] (columns slices)) metered
    rcases ran : context.inTransaction (fun transaction =>
      transaction.mutate target.store key [] (columns slices)) metered with ⟨_ | _, after⟩
    · rw [ran] at counted
      exact counted
    · rw [ran] at counted
      dsimp only at counted ⊢
      rw [if_pos rfl, ← counted]
      rfl

theorem find?_change (row : Row) (removed : List Bytes) (column : Bytes) :
    (Row.change row [] removed).find? column =
      if column ∈ removed then none else row.find? column := by
  show (removed.foldl (fun (row : Row) column => row.erase column) row).find? column = _
  split
  · rename_i member
    exact OrderedMap.find?_foldl_erase_of_mem member row
  · rename_i absent
    exact OrderedMap.find?_foldl_erase_of_not_mem absent row

/-- What the work on a row leaves behind. -/
structure Processed (backend : TableBackend manager) (store : String) (key : Bytes)
    (slices : RowSlices) (before : CachePool × σ) (ending : Handled) (after : CachePool × σ) :
    Prop where
  refers : after.1.Refers (backend.refer after.2)
  refer : backend.refer after.2 = backend.refer before.2
  isOpen : backend.isOpen after.2 = backend.isOpen before.2
  own : changes key slices ending (Tables.row (backend.tables before.2) store key)
    (Tables.row (backend.tables after.2) store key)
  others : ∀ other, other ≠ key → Tables.row (backend.tables after.2) store other =
    Tables.row (backend.tables before.2) store other

theorem processed_of_commit {backend : TableBackend manager} {store : String} {key : Bytes}
    {slices : RowSlices} {before after : CachePool × σ} {outcome : Result Unit}
    (commit : Transaction.RowCommit backend ⟨store, key, [], columns slices⟩ before outcome after) :
    Processed backend store key slices before
      (match outcome with
        | .ok () => .done
        | .error failure => .failed failure) after where
  refers := commit.refers
  refer := commit.refer
  isOpen := commit.isOpen
  own := by
    cases outcome with
    | ok done =>
        refine .inl ⟨rfl, ?_⟩
        intro column
        have touched : RowChange.touches store key ⟨store, key, [], columns slices⟩ = true :=
          RowChange.touches_iff.2 ⟨rfl, rfl⟩
        rw [commit.made rfl, Tables.row_apply, if_pos touched]
        exact find?_change _ _ _
    | error failure =>
        refine .inr ⟨⟨failure, rfl⟩, ?_⟩
        rw [commit.unmade failure rfl]
  others other different := by
    cases outcome with
    | ok done =>
        have untouched : ¬ RowChange.touches store other ⟨store, key, [], columns slices⟩ = true :=
          fun touches => different (RowChange.touches_iff.1 touches).2.symm
        rw [commit.made rfl, Tables.row_apply, if_neg untouched]
    | error failure => rw [commit.unmade failure rfl]

section Job

variable (backend : ScanBackend manager) (atomic : backend.RowsAtomic) (stripe : Bytes → Stripe)
  (bufferSize : Nat) (schema : Schema) (options : IndexOptions) (target : RemovalTarget)

include atomic

/-- The work on a row removes its cells, or fails and leaves the row as it was. -/
theorem process_result (key : Bytes) (slices : RowSlices) {metered : Metered (CachePool × σ)}
    (refers : metered.world.1.Refers (backend.refer metered.world.2)) :
    let processed := process (.pooled manager stripe bufferSize schema options) (some target) key
      slices metered
    Processed backend.toTableBackend target.store key slices metered.world processed.1
      processed.2.world := by
  rw [process_apply]
  split
  · rename_i nothing
    refine ⟨refers, rfl, rfl, .inl ⟨rfl, ?_⟩, fun _ _ => rfl⟩
    intro column
    rw [List.isEmpty_iff.1 nothing, if_neg List.not_mem_nil]
  · obtain ⟨outcome, after, ran, commit⟩ := IndexJobContext.inTransaction_row stripe bufferSize
      schema options backend.toTableBackend atomic ⟨target.store, key, [], columns slices⟩ refers
    rw [IndexJobContext.commitCounting_apply, ran]
    have processed := processed_of_commit commit
    cases outcome <;> exact processed

end Job

/-! ### The laws of the job -/

section Laws

variable (backend : ScanBackend manager) (stripe : Bytes → Stripe) (bufferSize : Nat)
  {schema : Schema} {options : IndexOptions} {name : String}

theorem resolve_apply {outcome : Result RemovalTarget}
    (resolved : RemovalTarget.resolve schema options name = outcome) (state : CachePool × σ) :
    (resolve (.pooled manager stripe bufferSize schema options) name :
      Action (CachePool × σ) RemovalTarget) state = (outcome, state) :=
  (Action.get_bind _ _).trans (congrArg (·, state) resolved)

variable {target : RemovalTarget}
  (resolved : RemovalTarget.resolve schema options name = .ok target)
include resolved

theorem start_apply (jobSettings graphSettings : Configuration) (worker : Option RemovalTarget)
    (metered : Metered (CachePool × σ)) :
    (job (.pooled manager stripe bufferSize schema options) name).start jobSettings graphSettings
      worker metered = (.ok (some target), metered) :=
  Action.bind_of_ok (Metered.onWorld_of_run (resolve_apply stripe bufferSize resolved _))

theorem validate_apply (state : CachePool × σ) :
    (job (.pooled manager stripe bufferSize schema options) name).validate state =
      (.ok target.store, state) :=
  Action.bind_of_ok (resolve_apply stripe bufferSize resolved state)

variable (scanning : ScanOptions) (reference : StoreRef)

theorem eq_target_of_starts {worker : Option RemovalTarget}
    (started : (job (.pooled manager stripe bufferSize schema options) name).Starts
      (backend.pooledStore scanning target.store reference).toScanView worker) :
    worker = some target := by
  obtain ⟨jobSettings, graphSettings, before, metered, -, begun⟩ := started
  rw [start_apply stripe bufferSize resolved] at begun
  exact (Except.ok.inj begun).symm

/-- Removal works on the rows of its target, and on each through a call for it. -/
theorem work (atomic : backend.RowsAtomic) :
    ScanWork (backend.pooledStore scanning target.store reference).toScanView
      (job (.pooled manager stripe bufferSize schema options) name)
      ⟨target.slice, [], target.filter schema⟩ changes where
  queries worker started := by
    rw [eq_target_of_starts backend stripe bufferSize resolved scanning reference started]
    rfl
  filters worker state started isReady := by
    rw [eq_target_of_starts backend stripe bufferSize resolved scanning reference started]
    rfl
  creates state isReady := .refl state
  starts jobSettings graphSettings worker metered isReady := by
    rw [start_apply stripe bufferSize resolved]
    exact .refl _
  processes worker key slices metered started isReady := by
    rw [eq_target_of_starts backend stripe bufferSize resolved scanning reference started]
    obtain ⟨isOpen, refer, refers⟩ := isReady
    have processed := process_result backend atomic stripe bufferSize schema options target key
      slices refers
    refine ⟨⟨?_, ?_, processed.refers⟩, processed.own, processed.others, id⟩
    · exact processed.isOpen.trans isOpen
    · exact (congrFun processed.refer target.store).trans refer
  finishes worker metered isReady := .refl _

/-- Nothing but the work on rows can fail. -/
theorem dependable : (job (.pooled manager stripe bufferSize schema options) name).Dependable
    (backend.pooledStore scanning target.store reference).toScanView where
  creates state isReady := ⟨none, rfl⟩
  starts jobSettings graphSettings worker metered isReady := by
    rw [start_apply stripe bufferSize resolved]
    exact ⟨some target, rfl⟩
  finishes worker metered isReady := ⟨none, rfl⟩

/-- The removal counts in counters of its own. -/
theorem leavesTotals :
    (job (.pooled manager stripe bufferSize schema options) name).LeavesTotals where
  start jobSettings graphSettings worker metered := by
    rw [start_apply stripe bufferSize resolved]
    exact .refl _
  process worker key slices metered := by
    cases worker with
    | none => exact .refl _
    | some other =>
        show metered.metrics.SameTotals (process _ (some other) key slices metered).2.metrics
        rw [process_metrics]
        split
        · exact .refl _
        · split <;> exact .add _ _ _
  finish worker metered := .refl _

/-- The counters go up with the work on rows alone. -/
theorem counts_of_process {counter : String} {amount : RowSlices → Handled → Nat}
    (counted : ∀ (key : Bytes) (slices : RowSlices) (metered : Metered (CachePool × σ)),
      let processed := process (.pooled manager stripe bufferSize schema options) (some target) key
        slices metered
      processed.2.metrics.get counter =
        metered.metrics.get counter + UInt64.ofNat (amount slices processed.1)) :
    (job (.pooled manager stripe bufferSize schema options) name).Counts
      (backend.pooledStore scanning target.store reference).toScanView counter amount where
  start jobSettings graphSettings worker metered := by
    rw [start_apply stripe bufferSize resolved]
  process worker key slices metered started isReady := by
    rw [eq_target_of_starts backend stripe bufferSize resolved scanning reference started]
    exact counted key slices metered
  finish worker metered := rfl

/-- The counter of removed cells goes up by the columns that a row loses. -/
theorem counts_deletes : (job (.pooled manager stripe bufferSize schema options) name).Counts
    (backend.pooledStore scanning target.store reference).toScanView deletes
    fun slices ending => if ending = .done then (columns slices).length else 0 := by
  refine counts_of_process backend stripe bufferSize resolved scanning reference
    fun key slices metered => ?_
  dsimp only
  rw [process_metrics]
  split
  · rename_i nothing
    rw [List.isEmpty_iff.1 nothing]
    simp
  · split
    · simp
    · simp [deletes, IndexJobContext.failedTransactions]

/-- The counter of failed transactions goes up with every row that is left. -/
theorem counts_failedTransactions :
    (job (.pooled manager stripe bufferSize schema options) name).Counts
      (backend.pooledStore scanning target.store reference).toScanView
      IndexJobContext.failedTransactions fun _ ending => if ending = .done then 0 else 1 := by
  refine counts_of_process backend stripe bufferSize resolved scanning reference
    fun key slices metered => ?_
  have idle : (columns slices).isEmpty = true →
      (process (.pooled manager stripe bufferSize schema options) (some target) key slices
        metered).1 = .done := by
    intro nothing
    rw [process_apply, if_pos nothing]
  dsimp only
  rw [process_metrics]
  split
  · rename_i nothing
    rw [if_pos (idle nothing)]
    simp
  · split
    · simp [deletes, IndexJobContext.failedTransactions]
    · simp

end Laws

end IndexRemoval

end GraphStore
