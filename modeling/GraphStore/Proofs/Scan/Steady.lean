import GraphStore.Proofs.Scan.Completion

/-!
Contract: scans in which nothing but calls of the job can fail.

Owns what this takes of the store (`ScanStore.Steady`) and of the job (`ScanJob.Dependable`), and
what it gives: all that such a scan notes are calls (`ScanWorld.Steps.calls_only`), so it fails as
often as its calls do. It also owns the value of a counter that a job keeps for itself
(`ScanWorld.Steps.counter_eq`), for all scans.
-/

namespace GraphStore

structure ScanStore.Steady {σ : Type} {scanner : Scanner σ} {reference : StoreRef}
    (store : ScanStore scanner reference) : Prop where
  starts : ∀ state, store.ready state → (scanner.manager.startScan reference state).1 = .ok ()
  pages : ∀ state range slice after size, store.ready state →
    ∃ rows, (scanner.manager.scanPage reference range slice after size state).1 = .ok rows
  reads : ∀ state key slice, store.ready state →
    ∃ entries, (scanner.manager.getSlice reference key slice state).1 = .ok entries

/-- The job fails on keys only. -/
structure ScanJob.Dependable {σ ω : Type} {scanner : Scanner σ} (job : ScanJob σ ω)
    (view : ScanView scanner) : Prop where
  creates : ∀ state, view.ready state → ∃ worker, (job.create state).1 = .ok worker
  starts : ∀ jobSettings graphSettings worker (metered : Metered σ), view.ready metered.world →
    ∃ started, (job.start jobSettings graphSettings worker metered).1 = .ok started
  finishes : ∀ worker (metered : Metered σ), view.ready metered.world →
    ∃ released, (job.finish worker metered).1 = .ok released

/-- The stores of an open backend are steady. -/
theorem ScanBackend.steady_scanStore {σ τ : Type} {manager : Manager σ}
    (backend : ScanBackend manager) (part : Part τ σ) (options : ScanOptions)
    (isCancelled : τ → Bool) (name : String) (store : StoreRef) (also : τ → Prop) :
    (backend.scanStore part options isCancelled name store also).Steady where
  starts whole isReady := by
    show (manager.startScan store (part.view whole)).1 = _
    rw [← isReady.2.1, backend.admits _ name isReady.1]
  pages whole range slice after size isReady := by
    refine ⟨Table.page (Tables.table (backend.tables (part.view whole)) name) range slice after
      size, ?_⟩
    show (manager.scanPage store range slice after size (part.view whole)).1 = _
    rw [← isReady.2.1, backend.pages _ name range slice after size isReady.1]
  reads whole key slice isReady := by
    refine ⟨Table.slice (Tables.table (backend.tables (part.view whole)) name) key slice, ?_⟩
    show (manager.getSlice store key slice (part.view whole)).1 = _
    rw [← isReady.2.1, backend.reads _ name key slice isReady.1]

/-! ### Walks -/

/-- A request for a row comes to a failure only if a page does. -/
theorem Pager.next_steady {σ : Type} {scanner : Scanner σ} {reference : StoreRef}
    {store : ScanStore scanner reference} (steady : store.Steady) (range : KeyRange)
    (slice : Slice) (failure : StoreError) (fuel : Nat) (pager : Pager) {state : σ}
    (isReady : store.ready state) :
    (next (scanner.manager.scanPage reference range slice) fuel pager state).1 ≠
      some (.error failure) := by
  induction fuel generalizing pager state with
  | zero => exact nofun
  | succ fuel inductionHypothesis =>
      cases limit : pager.selector.reachedLimit with
      | true =>
          rw [next_of_full limit]
          exact nofun
      | false =>
      rcases draw_cases limit pager.buffered with ⟨_, row, back, _, _, _, drew⟩ | ⟨_, drew⟩
      · rw [next_of_buffered limit drew]
        exact nofun
      cases used : pager.exhausted with
      | true =>
          rw [next_of_exhausted limit drew used]
          exact nofun
      | false =>
      have keeps := (store.pages state range slice pager.lastKey pager.pageSize isReady).1
      obtain ⟨page, answered⟩ :=
        steady.pages state range slice pager.lastKey pager.pageSize isReady
      rcases fetched : scanner.manager.scanPage reference range slice pager.lastKey
        pager.pageSize state with ⟨outcome, left⟩
      rw [fetched] at keeps answered
      obtain rfl : outcome = .ok page := answered
      rw [next_of_fetched limit drew used fetched]
      split
      · exact nofun
      · exact inductionHypothesis _ (keeps.ready isReady)

namespace WorkerPhase

variable {ω : Type}

def isBroken : WorkerPhase ω → Bool
  | drawn _ _ (some (.error _)) => true
  | _ => false

end WorkerPhase

/-! ### What is noted -/

namespace ScanPlan

variable {σ ω : Type} {plan : ScanPlan σ ω} {store : ScanStore plan.scanner plan.store}
  {scope : ScanScope} {changes : RowChanges} {table : Table} {phase after : WorkerPhase ω}
  {shared sharedAfter : ScanShared σ}

/-- A step notes a call or nothing. -/
structure Quiet (shared : ScanShared σ) (after : WorkerPhase ω) (sharedAfter : ScanShared σ) :
    Prop where
  whole : after.isBroken = false
  noted : sharedAfter.trace = shared.trace ∨
    ∃ call, sharedAfter.trace = shared.trace ++ [.called call]

theorem resumption_steady {setup : WorkerSetup ω} {batch : ScanBatch} {calls : List ScanCall}
    (good : plan.GoodPhase store.toScanView scope table calls (.drawn setup batch none))
    (failure : StoreError) : plan.resumption? batch ≠ some (.error failure) := by
  obtain ⟨-, counted, -⟩ := good
  rcases counted.resumption with ⟨-, key, rest, -, resumed, -⟩ | ⟨-, none⟩
  · rw [resumed]
    exact nofun
  · rw [none]
    exact nofun

theorem openBatch_steady (steady : store.Steady)
    (batched : 0 < plan.scanner.options.keysPerBatch) (setup : WorkerSetup ω) (range : KeyRange)
    {state : σ} (isReady : store.ready state) (failure : StoreError) :
    (plan.scanner.openBatch plan.store setup range state).1 ≠ .error failure := by
  have selected : (Action.ofResult (Selector.new setup.filter
      plan.scanner.options.keysPerBatch) : Action σ Selector) state =
        (.ok ⟨setup.filter, plan.scanner.options.keysPerBatch, 0⟩, state) := by
    simp [Selector.new, Nat.ne_of_gt batched]
  unfold Scanner.openBatch
  rw [Action.bind_of_ok selected, Manager.getKeys, Action.bind_pure_apply,
    steady.starts state isReady]
  intro failed
  cases failed

/-- Where neither the store nor the job's chores fail, a step is quiet. -/
theorem WorkerStep.quiet (steady : store.Steady) (dependable : plan.job.Dependable store.toScanView)
    (work : ScanWork store.toScanView plan.job scope changes)
    (batched : 0 < plan.scanner.options.keysPerBatch)
    (step : plan.WorkerStep phase shared after sharedAfter) (isReady : store.ready shared.world)
    (good : plan.GoodPhase store.toScanView scope table shared.calls phase)
    (whole : phase.isBroken = false) : Quiet shared after sharedAfter := by
  -- The steps of a chore that has failed are ruled out one by one.
  cases step with
  | uncreated ran =>
      obtain ⟨worker, created⟩ := dependable.creates shared.world isReady
      rw [ran] at created
      exact nomatch created
  | @unstarted _ worker failure left ran =>
      obtain ⟨ready, started⟩ := dependable.starts plan.jobSettings plan.graphSettings worker
        shared.metered isReady
      rw [ran] at started
      exact nomatch started
  | @unequipped _ worker queries =>
      have asked := work.queries worker good
      rw [queries] at asked
      exact nomatch asked
  | @unopened _ setup part range failure left ran =>
      have opened := openBatch_steady steady batched setup range isReady failure
      rw [ran] at opened
      exact absurd rfl opened
  | @drew _ setup batch row walk left ran =>
      refine ⟨?_, .inl rfl⟩
      cases row with
      | none => rfl
      | some row =>
          cases row with
          | ok row => rfl
          | error failure =>
              obtain ⟨-, -, standing, -⟩ := good
              have drawn := Pager.next_steady steady batch.walk.range batch.walk.slice failure
                (plan.scanner.manager.rowCount batch.walk.store shared.world + 2)
                batch.walk.pager isReady
              rw [← standing.store] at drawn
              exact absurd (congrArg Prod.fst ran) drawn
  | stuck next => exact absurd next (resumption_steady good _)
  | broke running => exact Bool.noConfusion whole
  | @unread _ setup batch row found slice left failure last ran =>
      obtain ⟨entries, answered⟩ := steady.reads shared.world row.key slice isReady
      rw [ran] at answered
      exact nomatch answered
  | @unfinished _ worker failure last ran =>
      obtain ⟨released, finished⟩ := dependable.finishes worker shared.metered isReady
      rw [ran] at finished
      exact nomatch finished
  | handled ran survived => exact ⟨rfl, .inr ⟨_, rfl⟩⟩
  | crashed ran => exact ⟨rfl, .inr ⟨_, rfl⟩⟩
  | _ => exact ⟨rfl, .inl rfl⟩

end ScanPlan

namespace ScanWorld

variable {σ ω : Type} {plan : ScanPlan σ ω} {store : ScanStore plan.scanner plan.store}
  {scope : ScanScope} {changes : RowChanges} {world : ScanWorld σ ω} {initial : σ}

def CallsOnly (shared : ScanShared σ) : Prop :=
  ∀ event ∈ shared.trace, ∃ call, event = .called call

/-- Nothing but calls fails in such a run. -/
theorem Steps.calls_only (steady : store.Steady)
    (dependable : plan.job.Dependable store.toScanView)
    (work : ScanWork store.toScanView plan.job scope changes) (apart : plan.Apart)
    (batched : 0 < plan.scanner.options.keysPerBatch) (isReady : store.ready initial)
    (steps : Steps plan store.Keeps (start plan initial) world) : CallsOnly world.shared := by
  have both : CallsOnly world.shared ∧ ∀ phase ∈ world.workers, phase.isBroken = false := by
    induction steps with
    | refl =>
        refine ⟨nofun, ?_⟩
        intro phase member
        rw [List.eq_of_mem_replicate member]
        rfl
    | tail steps step before =>
        cases step with
        | interference allowed => exact before
        | @worker index phase after shared present step =>
            have sound := steps.sound work apart isReady
            have quiet := step.quiet steady dependable work batched sound.ledger.ready
              (sound.phases index phase present)
              (before.2 phase (List.mem_of_getElem? present))
            constructor
            · intro event member
              rcases quiet.noted with same | ⟨call, grown⟩
              · exact before.1 event (same ▸ member)
              · rcases List.mem_append.1 (grown ▸ member) with earlier | last
                · exact before.1 event earlier
                · exact ⟨call, List.mem_singleton.1 last⟩
            · intro other member
              rcases List.mem_or_eq_of_mem_set member with earlier | same
              · exact before.2 other earlier
              · exact same ▸ quiet.whole
  exact both.1

/-- The failures are the calls that are not done. -/
theorem CallsOnly.failures {shared : ScanShared σ} (only : CallsOnly shared) :
    shared.failures = shared.calls.countP fun call => call.ending ≠ .done := by
  unfold ScanShared.failures ScanShared.calls
  rw [List.countP_filterMap]
  apply List.countP_congr
  intro event member
  obtain ⟨call, rfl⟩ := only event member
  simp [ScanEvent.isFailure, ScanEvent.call?]

theorem CallsOnly.unbroken {shared : ScanShared σ} (only : CallsOnly shared)
    (survived : ∀ call ∈ shared.calls, call.ending ≠ .crashed) : shared.Unbroken := by
  intro event member
  obtain ⟨call, rfl⟩ := only event member
  apply decide_eq_false
  apply survived call
  exact List.mem_filterMap.2 ⟨_, member, rfl⟩

theorem CallsOnly.flawless {shared : ScanShared σ} (only : CallsOnly shared)
    (done : ∀ call ∈ shared.calls, call.ending = .done) : shared.Flawless := by
  intro event member
  obtain ⟨call, rfl⟩ := only event member
  have fine := done call (List.mem_filterMap.2 ⟨_, member, rfl⟩)
  simp [ScanEvent.isFailure, fine]

/-- What a complete scan comes to in which nothing but calls fails: there is one call for each key
of the range that the scan is about, and rows change through their calls only. -/
structure Exhausts (scope : ScanScope) (changes : RowChanges) (range : KeyRange)
    (before after : Table) (calls : List ScanCall) : Prop where
  once : (calls.map ScanCall.key).Nodup
  included : ∀ call ∈ calls, scope.Includes before range call.key
  called : ∀ key, scope.Includes before range key → ∃ call ∈ calls, call.key = key
  good : ∀ call ∈ calls, GoodCall scope changes before after call
  untouched : ∀ key, (∀ call ∈ calls, call.key ≠ key) →
    Table.row after key = Table.row before key

/-- A complete run of such a scan has one call for each key. -/
theorem Steps.exhausts {range : KeyRange} (steady : store.Steady)
    (dependable : plan.job.Dependable store.toScanView)
    (work : ScanWork store.toScanView plan.job scope changes) (tiles : range.Tiles plan.ranges)
    (manned : 0 < plan.scanner.options.workers) (batched : 0 < plan.scanner.options.keysPerBatch)
    (isReady : store.ready initial) (steps : Steps plan store.Keeps (start plan initial) world)
    (complete : world.Complete)
    (survives : ∀ key slices before after, ¬ changes key slices .crashed before after)
    (running : plan.scanner.isCancelled world.shared.world = false) :
    Exhausts scope changes range (store.table initial) (store.table world.shared.world)
      world.shared.calls := by
  have sound := steps.sound work tiles.apart isReady
  have only := steps.calls_only steady dependable work tiles.apart batched isReady
  have unbroken : world.shared.Unbroken := by
    apply only.unbroken
    intro call member crashed
    have change := (sound.ledger.calls call member).change
    rw [crashed] at change
    exact survives _ _ _ _ change
  have through := through_of_unbroken work tiles.apart manned isReady steps complete unbroken
    running
  exact {
    once := sound.ledger.once
    included := fun call member => sound.ledger.includes tiles member
    called := fun key included => sound.called complete through tiles unbroken running included
    good := sound.ledger.calls
    untouched := sound.ledger.untouched }

end ScanWorld

/-! ### Counters of a job -/

/-- Each call adds the given amount to a counter, which the rest of the job leaves alone. -/
structure ScanJob.Counts {σ ω : Type} {scanner : Scanner σ} (job : ScanJob σ ω)
    (view : ScanView scanner) (counter : String) (amount : RowSlices → Handled → Nat) : Prop where
  start : ∀ jobSettings graphSettings worker (metered : Metered σ),
    (job.start jobSettings graphSettings worker metered).2.metrics.get counter =
      metered.metrics.get counter
  process : ∀ worker key slices (metered : Metered σ), job.Starts view worker →
    view.ready metered.world →
    (job.process worker key slices metered).2.metrics.get counter =
      metered.metrics.get counter +
        UInt64.ofNat (amount slices (job.process worker key slices metered).1)
  finish : ∀ worker (metered : Metered σ),
    (job.finish worker metered).2.metrics.get counter = metered.metrics.get counter

namespace ScanShared

variable {σ : Type} {shared : ScanShared σ} {counter : String}
  {amount : RowSlices → Handled → Nat}

def amounts (shared : ScanShared σ) (amount : RowSlices → Handled → Nat) : Nat :=
  (shared.calls.map fun call => amount call.slices call.ending).sum

/-- The counter says what the calls add up to, up to its size. -/
def Sums (shared : ScanShared σ) (counter : String) (amount : RowSlices → Handled → Nat) : Prop :=
  shared.metrics.get counter = UInt64.ofNat (shared.amounts amount)

theorem Sums.withMetered (sums : shared.Sums counter amount) {after : Metered σ}
    (same : after.metrics.get counter = shared.metrics.get counter) :
    (shared.withMetered after).Sums counter amount :=
  same.trans sums

theorem Sums.fail (sums : shared.Sums counter amount) (chore : ScanChore) :
    (shared.fail chore).Sums counter amount := by
  unfold Sums amounts
  rw [calls_fail]
  exact sums

/-- A call adds its amount to the counter. -/
theorem Sums.handle (sums : shared.Sums counter amount) {after : Metered σ} (call : ScanCall)
    (added : after.metrics.get counter =
      shared.metrics.get counter + UInt64.ofNat (amount call.slices call.ending)) :
    ((shared.withMetered after).handle call).Sums counter amount := by
  have counted : ((shared.withMetered after).handle call).metrics.get counter =
      after.metrics.get counter := by
    show ScanMetrics.get (if call.ending = .done then after.metrics.succeed
      else after.metrics.fail) counter = _
    split <;> rfl
  have more : ((shared.withMetered after).handle call).amounts amount =
      shared.amounts amount + amount call.slices call.ending := by
    unfold amounts
    rw [calls_handle, List.map_append, List.sum_append]
    simp [calls, ScanShared.withMetered]
  rw [Sums, counted, more, UInt64.ofNat_add, added, ← sums]

end ScanShared

theorem ScanJob.Counts.carries {σ ω : Type} {plan : ScanPlan σ ω} {view : ScanView plan.scanner}
    {counter : String} {amount : RowSlices → Handled → Nat}
    (counts : plan.job.Counts view counter amount) :
    plan.Carries (fun worker world => plan.job.Starts view worker ∧ view.ready world)
      fun shared => shared.Sums counter amount where
  same before after metrics trace sums := by
    unfold ScanShared.Sums ScanShared.amounts ScanShared.calls
    rw [metrics, trace]
    exact sums
  start shared worker sums := sums.withMetered (counts.start _ _ _ _)
  finish shared worker sums := sums.withMetered (counts.finish _ _)
  fail shared chore sums := sums.fail chore
  call shared call worker usable ended sums := by
    apply sums.handle call
    rw [ended]
    exact counts.process worker call.key call.slices shared.metered usable.1 usable.2

namespace ScanWorld

variable {σ ω : Type} {plan : ScanPlan σ ω} {store : ScanStore plan.scanner plan.store}
  {scope : ScanScope} {changes : RowChanges} {world : ScanWorld σ ω} {initial : σ}
  {counter : String} {amount : RowSlices → Handled → Nat}

/-- A counter of the job holds the sum over all calls, however the workers take turns. -/
theorem Steps.counter_eq (counts : plan.job.Counts store.toScanView counter amount)
    (work : ScanWork store.toScanView plan.job scope changes) (apart : plan.Apart)
    (isReady : store.ready initial) (steps : Steps plan store.Keeps (start plan initial) world) :
    world.shared.metrics.get counter = UInt64.ofNat (world.shared.amounts amount) := by
  have sums : world.shared.Sums counter amount := by
    induction steps with
    | refl => rfl
    | tail steps step before =>
        cases step with
        | interference allowed => exact before
        | @worker index phase after shared present step =>
            have sound := steps.sound work apart isReady
            apply step.carries counts.carries _ before
            rintro setup batch row found rfl
            obtain ⟨equipped, -⟩ := sound.phases index _ present
            exact ⟨equipped.starts, sound.ledger.ready⟩
  exact sums

end ScanWorld

end GraphStore
