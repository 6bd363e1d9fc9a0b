import GraphStore.Proofs.Index.Recording
import GraphStore.Proofs.Scan.Effects
import GraphStore.Proofs.Scan.Removal
import GraphStore.Proofs.Transaction.ManyRows

/-!
Contract: building an index does what a scan expects of its job.

Owns what the job does to one row of the edge store (`IndexRepair.process_result`): it leaves the
row alone and writes the cells that the row calls for on top of the index store, all of them when
the work is done. From this follow the laws of jobs (`IndexRepair.work`), and that the cells of the
index store are those of the calls, one call on top of the other (`IndexRepair.affects`).
-/

namespace GraphStore

/-! ### Transactions of many rows -/

namespace IndexJobContext

variable {σ : Type} {manager : Manager σ} (stripe : Bytes → Stripe) (bufferSize : Nat)
  (schema : Schema) (options : IndexOptions)

/-- Row changes in a transaction of their own. -/
theorem inTransaction_changes (backend : TableBackend manager) (changes : List RowChange)
    {metered : Metered (CachePool × σ)}
    (refers : metered.world.1.Refers (backend.refer metered.world.2)) :
    ∃ outcome after,
      (pooled manager stripe bufferSize schema options).inTransaction
          (fun transaction => transaction.stageAll changes) metered = (outcome, after) ∧
        Transaction.ChangesCommit backend changes metered.world outcome after.world := by
  obtain ⟨staged, outcome, ended, after, taken, committed, result⟩ :=
    Transaction.commit_changes backend stripe bufferSize changes refers
  unfold inTransaction pooled
  dsimp only
  rw [taken]
  dsimp only
  rw [committed]
  cases outcome with
  | ok done => exact ⟨_, _, rfl, result⟩
  | error failure => exact ⟨_, _, rfl, result⟩

theorem commitCounting_sameTotals (context : IndexJobContext σ) (counter : String) (count : Nat)
    (stage : Transaction → Result Transaction) (metered : Metered σ) :
    metered.metrics.SameTotals (context.commitCounting counter count stage metered).2.metrics := by
  rw [commitCounting_apply]
  have counted := context.inTransaction_metrics stage metered
  rcases ran : context.inTransaction stage metered with ⟨failure | done, after⟩
  · rw [ran] at counted
    have same : after.metrics = _ := counted
    exact same ▸ .add _ _ _
  · rw [ran] at counted
    have same : after.metrics = metered.metrics := counted
    show metered.metrics.SameTotals (after.metrics.add counter (UInt64.ofNat count))
    rw [same]
    exact .add _ _ _

end IndexJobContext

namespace IndexRepair

variable {σ : Type} {manager : Manager σ}

/-- The rows of elements that are not reserved, each of them as a whole. -/
def scope (schema : Schema) : ScanScope :=
  ⟨Slice.fullRow, [], fun key =>
    match Encoding.leadingUInt64 key with
    | .error _ => false
    | .ok element => !schema.isReserved element⟩

/-- The work on a row of an element leaves it alone. It is done only if the cells that the row calls
for can be told; and if writes cannot fail, it is done whenever they can. -/
def changes (index : IndexDescriptor) (extract : Extractor) (reliable : Prop) : RowChanges :=
  fun key slices ending before after =>
    after = before ∧
    (ending = .done → ∃ cells, cellsOfRow index extract key slices = .ok cells) ∧
    (reliable → (∃ cells, cellsOfRow index extract key slices = .ok cells) → ending = .done)

/-- The cells that the work on a row writes, if they can be told. -/
def cellsOf (index : IndexDescriptor) (extract : Extractor) (key : Bytes) (slices : RowSlices) :
    List IndexCell :=
  ((cellsOfRow index extract key slices).toOption).getD []

theorem cellsOf_of_ok {index : IndexDescriptor} {extract : Extractor} {key : Bytes}
    {slices : RowSlices} {cells : List IndexCell}
    (told : cellsOfRow index extract key slices = .ok cells) :
    cellsOf index extract key slices = cells := by
  rw [cellsOf, told]
  rfl

/-! ### The work on a row -/

theorem stageCells_eq (store : String) (cells : List IndexCell) (transaction : Transaction) :
    stageCells store cells transaction =
      transaction.stageAll (cells.map (IndexCell.change store)) := by
  induction cells generalizing transaction with
  | nil => rfl
  | cons cell cells inductionHypothesis =>
      show (transaction.mutate store cell.key [cell.entry] [] >>= fun staged =>
        stageCells store cells staged) = _
      rw [List.map_cons, Transaction.stageAll]
      exact congrArg _ (funext inductionHypothesis)

theorem process_apply (context : IndexJobContext σ) (extract : Extractor)
    (index : IndexDescriptor) (key : Bytes) (slices : RowSlices) (metered : Metered σ) :
    process context extract (some index) key slices metered =
      match cellsOfRow index extract key slices with
      | .error failure => (.failed failure, metered)
      | .ok [] => (.done, metered)
      | .ok cells => context.commitCounting adds cells.length (fun transaction =>
          transaction.stageAll (cells.map (IndexCell.change context.options.indexStore)))
          metered := by
  unfold process
  dsimp only
  rcases cellsOfRow index extract key slices with _ | _ | ⟨cell, cells⟩
  · rfl
  · rfl
  · dsimp only
    congr 1
    funext transaction
    exact stageCells_eq _ _ _

/-- What the work on a row leaves behind. -/
structure Processed (backend : TableBackend manager) (options : IndexOptions)
    (index : IndexDescriptor) (extract : Extractor) (key : Bytes) (slices : RowSlices)
    (before : CachePool × σ) (ending : Handled) (after : CachePool × σ) : Prop where
  refers : after.1.Refers (backend.refer after.2)
  refer : backend.refer after.2 = backend.refer before.2
  isOpen : backend.isOpen after.2 = backend.isOpen before.2
  others : ∀ store, store ≠ options.indexStore →
    Tables.table (backend.tables after.2) store = Tables.table (backend.tables before.2) store
  told : ending = .done → ∃ cells, cellsOfRow index extract key slices = .ok cells
  recorded : ending = .done →
    Table.cell? (Tables.table (backend.tables after.2) options.indexStore) =
      IndexCell.overlay (Table.cell? (Tables.table (backend.tables before.2) options.indexStore))
        (cellsOf index extract key slices)
  succeeds : backend.reliable → backend.isOpen before.2 = true →
    (∃ cells, cellsOfRow index extract key slices = .ok cells) → ending = .done

/-- Work that writes nothing. -/
theorem processed_idle {backend : TableBackend manager} {options : IndexOptions}
    {index : IndexDescriptor} {extract : Extractor} {key : Bytes} {slices : RowSlices}
    {state : CachePool × σ} {ending : Handled} (refers : state.1.Refers (backend.refer state.2))
    (none : ending = .done → cellsOfRow index extract key slices = .ok [])
    (done : (∃ cells, cellsOfRow index extract key slices = .ok cells) → ending = .done) :
    Processed backend options index extract key slices state ending state where
  refers := refers
  refer := rfl
  isOpen := rfl
  others _ _ := rfl
  told isDone := ⟨[], none isDone⟩
  recorded isDone := by
    rw [cellsOf_of_ok (none isDone)]
    rfl
  succeeds _ _ := done

theorem processed_of_commit {backend : TableBackend manager} {options : IndexOptions}
    {index : IndexDescriptor} {extract : Extractor} {key : Bytes} {slices : RowSlices}
    {cells : List IndexCell} (told : cellsOfRow index extract key slices = .ok cells)
    {before after : CachePool × σ} {outcome : Result Unit}
    (commit : Transaction.ChangesCommit backend (cells.map (IndexCell.change options.indexStore))
      before outcome after) :
    Processed backend options index extract key slices before
      (match outcome with
        | .ok () => .done
        | .error failure => .failed failure) after where
  refers := commit.refers
  refer := commit.refer
  isOpen := commit.isOpen
  others store other := by
    apply commit.spared
    intro change member own
    obtain ⟨cell, -, rfl⟩ := List.mem_map.1 member
    exact other own.symm
  told _ := ⟨cells, told⟩
  recorded isDone := by
    cases outcome with
    | error failure => exact nomatch isDone
    | ok done =>
        rw [cellsOf_of_ok told, ← IndexCell.cell?_applyAll]
        funext probe column
        exact congrArg (fun row : Row => row.find? column)
          (commit.made rfl options.indexStore probe)
  succeeds reliable isOpen _ := by
    obtain rfl := commit.succeeds reliable isOpen
    rfl

/-- The work on a row that is done has written the cells that the row calls for, and no store but
that of the index is ever written to. -/
theorem process_result (backend : TableBackend manager) (stripe : Bytes → Stripe)
    (bufferSize : Nat) (schema : Schema) (options : IndexOptions) (extract : Extractor)
    (index : IndexDescriptor) (key : Bytes) (slices : RowSlices)
    {metered : Metered (CachePool × σ)}
    (refers : metered.world.1.Refers (backend.refer metered.world.2)) :
    let processed := process (.pooled manager stripe bufferSize schema options) extract
      (some index) key slices metered
    Processed backend options index extract key slices metered.world processed.1
      processed.2.world := by
  rw [process_apply]
  rcases told : cellsOfRow index extract key slices with failure | _ | ⟨cell, cells⟩
  · refine processed_idle refers nofun ?_
    intro some
    rw [told] at some
    obtain ⟨cells, some⟩ := some
    exact nomatch some
  · exact processed_idle refers (fun _ => told) fun _ => rfl
  · obtain ⟨outcome, after, ran, commit⟩ := IndexJobContext.inTransaction_changes stripe bufferSize
      schema options backend ((cell :: cells).map (IndexCell.change options.indexStore)) refers
    dsimp only
    rw [IndexJobContext.commitCounting_apply]
    rw [show (IndexJobContext.pooled manager stripe bufferSize schema options).options = options
      from rfl, ran]
    have processed := processed_of_commit told commit
    cases outcome <;> exact processed

/-! ### The laws of the job -/

theorem resolve_of_rebuildable {schema : Schema} {name : String} {index : IndexDescriptor}
    (found : schema.index name = .ok index) (composite : index.isComposite = true)
    (status : index.status = .registered ∨ index.status = .enabled) :
    resolve schema name = .ok index := by
  unfold resolve
  rw [found]
  rcases status with registered | enabled
  · simp [bind, Except.bind, composite, registered, pure, Except.pure]
  · simp [bind, Except.bind, composite, enabled, pure, Except.pure]

/-- The building of an index on a backend with a pool of caches beside it: the index may be built,
and it is not kept among the rows of elements. -/
structure Rebuild {σ : Type} (manager : Manager σ) where
  backend : ScanBackend manager
  stripe : Bytes → Stripe
  bufferSize : Nat
  schema : Schema
  options : IndexOptions
  extract : Extractor
  name : String
  index : IndexDescriptor
  scanning : ScanOptions
  reference : StoreRef
  jobSettings : Configuration
  graphSettings : Configuration
  found : schema.index name = .ok index
  composite : index.isComposite = true
  status : index.status = .registered ∨ index.status = .enabled
  elsewhere : options.edgeStore ≠ options.indexStore
  manned : 0 < scanning.workers
  batched : 0 < scanning.keysPerBatch

theorem standard_apart : IndexOptions.standard.edgeStore ≠ IndexOptions.standard.indexStore := by
  decide

namespace Rebuild

variable (rebuild : Rebuild manager)

def context : IndexJobContext (CachePool × σ) :=
  .pooled manager rebuild.stripe rebuild.bufferSize rebuild.schema rebuild.options

def job : ScanJob (CachePool × σ) (Option IndexDescriptor) :=
  IndexRepair.job rebuild.context rebuild.extract rebuild.name

def scanner : Scanner (CachePool × σ) := .pooled manager rebuild.scanning

def store : ScanStore rebuild.scanner rebuild.reference :=
  rebuild.backend.pooledStore rebuild.scanning rebuild.options.edgeStore rebuild.reference

def plan : ScanPlan (CachePool × σ) (Option IndexDescriptor) :=
  rebuild.scanner.plan rebuild.job rebuild.reference .full rebuild.jobSettings
    rebuild.graphSettings

/-- The cells of the index store. -/
def recorded (state : CachePool × σ) : Bytes → Bytes → Option Bytes :=
  Table.cell? (Tables.table (rebuild.backend.tables state.2) rebuild.options.indexStore)

/-- While an index is built, others leave the rows of elements and the index store alone. -/
structure Undisturbed (before after : CachePool × σ) : Prop where
  keeps : rebuild.store.Keeps before after
  recorded : rebuild.recorded after = rebuild.recorded before

/-- The partitions of a rebuild tile the range of all keys. -/
theorem tiles : KeyRange.full.Tiles rebuild.plan.ranges :=
  rebuild.scanner.plan_tiles rebuild.job rebuild.reference .full rebuild.jobSettings
    rebuild.graphSettings

theorem current_apply (state : CachePool × σ) :
    current rebuild.context rebuild.name state = (.ok rebuild.index, state) :=
  (Action.get_bind _ _).trans
    (congrArg (·, state) (resolve_of_rebuildable rebuild.found rebuild.composite rebuild.status))

theorem start_apply (jobSettings graphSettings : Configuration)
    (worker : Option IndexDescriptor) (metered : Metered (CachePool × σ)) :
    rebuild.job.start jobSettings graphSettings worker metered =
      (.ok (some rebuild.index), metered) :=
  Action.bind_of_ok (Metered.onWorld_of_run (rebuild.current_apply _))

theorem validate_apply (state : CachePool × σ) :
    rebuild.job.validate state = (.ok rebuild.options.edgeStore, state) :=
  Action.bind_of_ok (rebuild.current_apply state)

theorem eq_index_of_starts {worker : Option IndexDescriptor}
    (started : rebuild.job.Starts rebuild.store.toScanView worker) :
    worker = some rebuild.index := by
  obtain ⟨jobSettings, graphSettings, before, metered, -, begun⟩ := started
  rw [rebuild.start_apply] at begun
  exact (Except.ok.inj begun).symm

/-- The work on a row, by a worker that has been started. -/
theorem processed {worker : Option IndexDescriptor} (key : Bytes) (slices : RowSlices)
    {metered : Metered (CachePool × σ)}
    (started : rebuild.job.Starts rebuild.store.toScanView worker)
    (isReady : rebuild.store.ready metered.world) :
    Processed rebuild.backend.toTableBackend rebuild.options rebuild.index rebuild.extract key
      slices metered.world (rebuild.job.process worker key slices metered).1
      (rebuild.job.process worker key slices metered).2.world := by
  rw [rebuild.eq_index_of_starts started]
  exact process_result rebuild.backend.toTableBackend rebuild.stripe rebuild.bufferSize
    rebuild.schema rebuild.options rebuild.extract rebuild.index key slices isReady.2.2

/-- Building an index reads rows of elements and leaves them alone. -/
theorem work : ScanWork rebuild.store.toScanView rebuild.job (scope rebuild.schema)
    (changes rebuild.index rebuild.extract rebuild.backend.reliable) where
  queries worker started := rfl
  filters worker state started isReady := rfl
  creates state isReady := .refl state
  starts jobSettings graphSettings worker metered isReady := by
    rw [rebuild.start_apply]
    exact .refl _
  processes worker key slices metered started isReady := by
    have processed := rebuild.processed key slices started isReady
    have same := processed.others rebuild.options.edgeStore rebuild.elsewhere
    refine ⟨⟨?_, ?_, processed.refers⟩, ⟨?_, processed.told, ?_⟩, ?_, id⟩
    · exact processed.isOpen.trans isReady.1
    · exact (congrFun processed.refer rebuild.options.edgeStore).trans isReady.2.1
    · exact congrArg (Table.row · key) same
    · exact fun reliable => processed.succeeds reliable isReady.1
    · exact fun other _ => congrArg (Table.row · other) same
  finishes worker metered isReady := .refl _

/-- Nothing but the work on rows can fail. -/
theorem dependable : rebuild.job.Dependable rebuild.store.toScanView where
  creates state isReady := ⟨none, rfl⟩
  starts jobSettings graphSettings worker metered isReady := by
    rw [rebuild.start_apply]
    exact ⟨some rebuild.index, rfl⟩
  finishes worker metered isReady := ⟨none, rfl⟩

theorem still : rebuild.job.Still rebuild.store.toScanView where
  creates state isReady := rfl
  starts jobSettings graphSettings worker metered isReady := by
    rw [rebuild.start_apply]
  finishes worker metered isReady := rfl

theorem leavesTotals : rebuild.job.LeavesTotals where
  start jobSettings graphSettings worker metered := by
    rw [rebuild.start_apply]
    exact .refl _
  process worker key slices metered := by
    cases worker with
    | none => exact .refl _
    | some other =>
        show metered.metrics.SameTotals
          (process rebuild.context rebuild.extract (some other) key slices metered).2.metrics
        rw [process_apply]
        rcases cellsOfRow other rebuild.extract key slices with _ | _ | ⟨cell, cells⟩
        · exact .refl _
        · exact .refl _
        · exact IndexJobContext.commitCounting_sameTotals _ _ _ _ _
  finish worker metered := .refl _

/-- Each call writes its cells on top of the index store and leaves the edge store alone, and
nothing else changes either of them. -/
theorem affects : ScanWorld.Affects rebuild.plan rebuild.store.toScanView rebuild.Undisturbed
    (fun state => (rebuild.store.table state, rebuild.recorded state))
    fun key slices shown =>
      (shown.1, IndexCell.overlay shown.2 (cellsOf rebuild.index rebuild.extract key slices)) where
  spares value :=
    ScanPlan.spares_of_still
      (rebuild.backend.still_scanStore _ _ _ _ _ _) rebuild.still fun _ held => held.1
  keeps _ _ undisturbed := undisturbed.keeps
  unmoved _ _ undisturbed := Prod.ext undisturbed.keeps.table undisturbed.recorded
  calls worker key slices metered started isReady done := by
    have processed := rebuild.processed key slices started isReady
    exact Prod.ext (processed.others rebuild.options.edgeStore rebuild.elsewhere)
      (processed.recorded done)

end Rebuild

end IndexRepair

end GraphStore
