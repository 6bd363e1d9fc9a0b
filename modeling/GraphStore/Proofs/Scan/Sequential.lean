import GraphStore.Proofs.Scan.Soundness

/-!
Contract: a scan whose workers take turns is one of the scans in which they may take any steps.

Owns the step from the functions of the scanner to the steps of its workers: reading slices,
handling a row, scanning a batch and a partition are steps of one worker; starting the workers,
having the partitions taken under any assignment, and finishing the workers are steps of the scan
(`Scanner.scan_run`). A walk has fewer keys in front of it than its bound allows, so it always comes
to its end.
-/

namespace GraphStore

namespace ScanPlan

open ScanWorld

variable {σ ω : Type} {plan : ScanPlan σ ω}

/-- The shared state goes on with other counters and another state of the stores, and further calls
and failures are noted; the reports grow by `keys`. -/
structure Passes (shared : ScanShared σ) (metered : Metered σ) (keys : Nat)
    (after : ScanShared σ) : Prop where
  metered : after.metered = metered
  reported : after.reported = shared.reported + keys
  taken : after.taken = shared.taken

theorem Passes.trans {shared between after : ScanShared σ} {first second : Metered σ}
    {keys others : Nat} (front : Passes shared first keys between)
    (back : Passes between second others after) : Passes shared second (keys + others) after where
  metered := back.metered
  reported := by rw [back.reported, front.reported, Nat.add_assoc]
  taken := back.taken.trans front.taken

theorem Passes.report {shared after : ScanShared σ} {metered : Metered σ}
    (passes : Passes shared metered 0 after) (keys : Nat) :
    Passes shared metered keys (after.report keys) where
  metered := passes.metered
  reported := by
    show after.reported + keys = _
    rw [passes.reported, Nat.add_zero]
  taken := passes.taken

/-! ### One worker -/

section Rows

variable {setup : WorkerSetup ω} {row : KeyedRow}

theorem readSlices_steps (setup : WorkerSetup ω) (batch : ScanBatch) (row : KeyedRow)
    (left : List Slice) (found : RowSlices) (shared : ScanShared σ) {outcome : Result RowSlices}
    {after : σ}
    (ran : Scanner.readSlices plan.scanner.manager plan.store row.key found left shared.world =
      (outcome, after)) :
    match outcome with
    | .ok slices => plan.WorkerSteps (.reading setup batch row found left) shared
        (.reading setup batch row slices []) (shared.withWorld after)
    | .error _ => plan.WorkerSteps (.reading setup batch row found left) shared
        (.finishing setup.worker)
        ((shared.withWorld after).fail (.read batch.part batch.keys)) := by
  induction left generalizing found shared with
  | nil =>
      obtain ⟨rfl, rfl⟩ := Prod.mk.inj ran
      exact .refl
  | cons slice left inductionHypothesis =>
      rw [Scanner.readSlices] at ran
      rcases read : plan.scanner.manager.getSlice plan.store row.key slice shared.world with
        ⟨failure | entries, between⟩
      · rw [Action.bind_of_error read] at ran
        obtain ⟨rfl, rfl⟩ := Prod.mk.inj ran
        exact (WorkerStep.unread read).single
      · rw [Action.bind_of_ok read] at ran
        have rest := inductionHypothesis (found.put slice entries) (shared.withWorld between) ran
        have first : plan.WorkerSteps (.reading setup batch row found (slice :: left)) shared
            (.reading setup batch row (found.put slice entries) left) (shared.withWorld between) :=
          (WorkerStep.read read).single
        cases outcome with
        | ok slices => exact first.trans rest
        | error failure => exact first.trans rest

/-- What becomes of a worker with a row at hand. -/
def phaseAfterRow (setup : WorkerSetup ω) (batch : ScanBatch) (row : KeyedRow) :
    RowEnd → WorkerPhase ω
  | .handled => .walking setup (batch.handled row.key)
  | .aborted _ => .finishing setup.worker
  | .crashed => .gone

/-- The counters once the end of the work on a row is counted. -/
def countEnd (metered : Metered σ) : RowEnd → Metered σ
  | .handled => metered
  | _ => metered.count ScanMetrics.fail

theorem handleRow_steps (batch : ScanBatch) (shared : ScanShared σ) {ending : RowEnd}
    {metered : Metered σ}
    (ran : plan.scanner.handleRow plan.job plan.store setup row shared.metered =
      (ending, metered)) :
    ∃ after, plan.WorkerSteps (.reading setup batch row [] setup.others) shared
        (phaseAfterRow setup batch row ending) after ∧
      Passes shared (countEnd metered ending) 0 after := by
  unfold Scanner.handleRow at ran
  rcases read : Scanner.readSlices plan.scanner.manager plan.store row.key [] setup.others
    shared.metered.world with ⟨failure | slices, between⟩
  · rw [read] at ran
    obtain ⟨rfl, rfl⟩ := Prod.mk.inj ran
    exact ⟨_, readSlices_steps setup batch row setup.others [] shared read, rfl, rfl, rfl⟩
  · rw [read] at ran
    have steps := readSlices_steps setup batch row setup.others [] shared read
    dsimp only at ran
    rcases handled : plan.job.process setup.worker row.key (slices.put setup.driver row.entries)
      { shared.metered with world := between } with ⟨ended, after⟩
    rw [handled] at ran
    cases ended with
    | done =>
        obtain ⟨rfl, rfl⟩ := Prod.mk.inj ran
        exact ⟨_, steps.tail (.handled handled (by decide)), rfl, rfl, rfl⟩
    | failed failure =>
        obtain ⟨rfl, rfl⟩ := Prod.mk.inj ran
        exact ⟨_, steps.tail (.handled handled (by simp)), rfl, rfl, rfl⟩
    | crashed =>
        obtain ⟨rfl, rfl⟩ := Prod.mk.inj ran
        exact ⟨_, steps.tail (.crashed handled), rfl, rfl, rfl⟩

end Rows

variable {store : ScanStore plan.scanner plan.store} {scope : ScanScope} {changes : RowChanges}
  {table : Table}

/-- A worker whose phase is what it stands for, beside calls that are. -/
structure Fit (plan : ScanPlan σ ω) (view : ScanView plan.scanner) (scope : ScanScope)
    (changes : RowChanges) (table : Table) (phase : WorkerPhase ω) (shared : ScanShared σ) :
    Prop where
  ledger : Ledger plan view scope changes table shared
  good : plan.GoodPhase view scope table shared.calls phase
  begun : ∀ part, phase.part? = some part → part < shared.taken

/-- Steps of a worker leave it at what its phase stands for. -/
theorem Fit.steps (work : ScanWork store.toScanView plan.job scope changes) (apart : plan.Apart)
    {phase after : WorkerPhase ω} {shared sharedAfter : ScanShared σ}
    (fit : Fit plan store.toScanView scope changes table phase shared)
    (steps : plan.WorkerSteps phase shared after sharedAfter) :
    Fit plan store.toScanView scope changes table after sharedAfter := by
  induction steps with
  | refl => exact fit
  | tail _ step before =>
      have advances := step.advances work apart before.ledger before.good before.begun
      refine ⟨advances.ledger, advances.good, ?_⟩
      intro part isPart
      rcases advances.place part isPart with own | ⟨same, more⟩
      · exact Nat.lt_of_lt_of_le (before.begun part own) advances.taken
      · exact same ▸ more

def callsIn (shared : ScanShared σ) (part : Nat) : Nat :=
  (ScanCall.keysOf shared.calls part).length

theorem Due.length {shared : ScanShared σ} {part : Nat} {rest : List Bytes}
    (due : plan.Due scope table shared.calls part rest) :
    (plan.keysOf scope table part).length = callsIn shared part + rest.length := by
  rw [due, List.length_append, callsIn]

def BatchEnded (plan : ScanPlan σ ω) (setup : WorkerSetup ω) (batch : ScanBatch)
    (shared : ScanShared σ) (metered : Metered σ) : BatchEnd → Prop
  | .through keys last => ∃ walk after, walk.range = batch.walk.range ∧
    plan.WorkerSteps (.walking setup batch) shared
      (.drawn setup ⟨batch.part, walk, keys, last⟩ none) after ∧
    Passes shared metered 0 after ∧
    callsIn shared batch.part + keys = callsIn after batch.part + batch.keys
  | .cancelled keys => ∃ after,
    plan.WorkerSteps (.walking setup batch) shared (.seeking setup) after ∧
      Passes shared metered keys after
  | .aborted _ => ∃ after,
    plan.WorkerSteps (.walking setup batch) shared (.finishing setup.worker) after ∧
      Passes shared (metered.count ScanMetrics.fail) 0 after
  | .crashed => ∃ after, plan.WorkerSteps (.walking setup batch) shared .gone after ∧
      Passes shared (metered.count ScanMetrics.fail) 0 after

/-- A batch that has handled a row ends as it does from there on. -/
theorem BatchEnded.behind {setup : WorkerSetup ω} {batch next : ScanBatch}
    {shared between : ScanShared σ} {middle metered : Metered σ}
    (steps : plan.WorkerSteps (.walking setup batch) shared (.walking setup next) between)
    (passes : Passes shared middle 0 between) (part : next.part = batch.part)
    (range : next.walk.range = batch.walk.range)
    (calls : callsIn shared batch.part + next.keys = callsIn between batch.part + batch.keys)
    {ending : BatchEnd} (ended : BatchEnded plan setup next between metered ending) :
    BatchEnded plan setup batch shared metered ending := by
  cases ending with
  | through keys last =>
      obtain ⟨walk, after, sameRange, rest, others, counted⟩ := ended
      rw [part] at rest counted
      have whole := passes.trans others
      exact ⟨walk, after, sameRange.trans range, steps.trans rest, whole, by omega⟩
  | cancelled keys =>
      obtain ⟨after, rest, others⟩ := ended
      have whole := passes.trans others
      rw [Nat.zero_add] at whole
      exact ⟨after, steps.trans rest, whole⟩
  | aborted failure =>
      obtain ⟨after, rest, others⟩ := ended
      exact ⟨after, steps.trans rest, passes.trans others⟩
  | crashed =>
      obtain ⟨after, rest, others⟩ := ended
      exact ⟨after, steps.trans rest, passes.trans others⟩

/-- What the next row of a walk comes to: the batch ends, or goes on behind the row. -/
inductive NextRow (plan : ScanPlan σ ω) (setup : WorkerSetup ω) (fuel : Nat) (batch : ScanBatch)
    (shared : ScanShared σ) (ending : BatchEnd) (metered : Metered σ) : Prop where
  | ended (outcome : BatchEnded plan setup batch shared metered ending)
  | onward (next : ScanBatch) (between : ScanShared σ)
      (steps : plan.WorkerSteps (.walking setup batch) shared (.walking setup next) between)
      (passes : Passes shared between.metered 0 between) (part : next.part = batch.part)
      (range : next.walk.range = batch.walk.range) (keys : next.keys = batch.keys + 1)
      (calls : callsIn between batch.part = callsIn shared batch.part + 1)
      (rest : plan.scanner.scanBatch plan.job plan.store setup fuel next.keys next.last next.walk
        between.metered = (ending, metered))

theorem callsIn_of_handled {setup : WorkerSetup ω} {batch : ScanBatch} {row : KeyedRow}
    {shared after : ScanShared σ}
    (held : Fit plan store.toScanView scope changes table
      (.reading setup batch row [] setup.others) shared)
    (next : Fit plan store.toScanView scope changes table
      (.walking setup (batch.handled row.key)) after) :
    callsIn after batch.part = callsIn shared batch.part + 1 := by
  have dueHeld := Due.length held.good.2.2.1.due
  have dueNext := Due.length next.good.2.2.2
  change (plan.keysOf scope table batch.part).length = callsIn after batch.part +
    (scope.keysBehind table batch.walk.range (some row.key)).length at dueNext
  rw [List.length_cons] at dueHeld
  omega

theorem scanBatch_row (work : ScanWork store.toScanView plan.job scope changes)
    (apart : plan.Apart) {setup : WorkerSetup ω} {fuel : Nat} {batch : ScanBatch}
    {shared : ScanShared σ}
    (fit : Fit plan store.toScanView scope changes table (.walking setup batch) shared)
    {ending : BatchEnd} {metered : Metered σ}
    (ran : plan.scanner.scanBatch plan.job plan.store setup (fuel + 1) batch.keys batch.last
      batch.walk shared.metered = (ending, metered)) :
    NextRow plan setup fuel batch shared ending metered := by
  unfold Scanner.scanBatch at ran
  rcases requested : batch.walk.next plan.scanner.manager shared.metered.world with
    ⟨row, walk, between⟩
  rw [requested] at ran
  dsimp only at ran
  have drew : plan.WorkerSteps (.walking setup batch) shared
      (.drawn setup { batch with walk := walk } row) (shared.withWorld between) :=
    (WorkerStep.drew requested).single
  have sameRange : walk.range = batch.walk.range := by
    have range := congrArg (fun drawn => drawn.2.1.range) requested
    exact range.symm
  cases row with
  | none =>
      obtain ⟨rfl, rfl⟩ := Prod.mk.inj ran
      exact .ended ⟨walk, _, sameRange, drew, ⟨rfl, rfl, rfl⟩, rfl⟩
  | some row =>
  dsimp only at ran
  cases cancelled : plan.scanner.isCancelled between with
  | true =>
      rw [cancelled] at ran
      obtain ⟨rfl, rfl⟩ := Prod.mk.inj ran
      exact .ended ⟨_, drew.tail (.cut cancelled), rfl, rfl, rfl⟩
  | false =>
  rw [cancelled] at ran
  cases row with
  | error failure =>
      obtain ⟨rfl, rfl⟩ := Prod.mk.inj ran
      exact .ended ⟨_, drew.tail (.broke cancelled), rfl, rfl, rfl⟩
  | ok row =>
  have held : plan.WorkerSteps (.walking setup batch) shared
      (.reading setup { batch with walk := walk } row [] setup.others)
      (shared.withWorld between) := drew.tail (.held cancelled)
  rcases worked : plan.scanner.handleRow plan.job plan.store setup row
    { shared.metered with world := between } with ⟨ended, handled⟩
  rw [if_neg Bool.false_ne_true] at ran
  dsimp only at ran
  rw [worked] at ran
  obtain ⟨after, steps, passes⟩ :=
    handleRow_steps { batch with walk := walk } (shared.withWorld between) worked
  have whole := held.trans steps
  have onward : Passes shared after.metered 0 after := ⟨rfl, passes.reported, passes.taken⟩
  cases ended with
  | aborted failure =>
      obtain ⟨rfl, rfl⟩ := Prod.mk.inj ran
      exact .ended ⟨after, whole, passes.metered, passes.reported, passes.taken⟩
  | crashed =>
      obtain ⟨rfl, rfl⟩ := Prod.mk.inj ran
      exact .ended ⟨after, whole, passes.metered, passes.reported, passes.taken⟩
  | handled =>
      have same : after.metered = handled := passes.metered
      rw [← same] at ran
      have fitHeld := fit.steps work apart held
      have fitNext := fit.steps work apart whole
      have more := callsIn_of_handled fitHeld fitNext
      exact .onward _ after whole onward rfl sameRange rfl more ran

theorem scanBatch_steps (work : ScanWork store.toScanView plan.job scope changes)
    (apart : plan.Apart) {setup : WorkerSetup ω} {fuel : Nat} {batch : ScanBatch}
    {shared : ScanShared σ}
    (fit : Fit plan store.toScanView scope changes table (.walking setup batch) shared)
    (enough : (plan.keysOf scope table batch.part).length < fuel + callsIn shared batch.part)
    {ending : BatchEnd} {metered : Metered σ}
    (ran : plan.scanner.scanBatch plan.job plan.store setup fuel batch.keys batch.last batch.walk
      shared.metered = (ending, metered)) :
    BatchEnded plan setup batch shared metered ending := by
  -- The induction is on the number of rows that the walk may still draw; `enough` says that the
  -- keys that are left of the partition are fewer.
  induction fuel generalizing batch shared with
  | zero =>
      have due := Due.length fit.good.2.2.2
      omega
  | succ fuel inductionHypothesis =>
      cases scanBatch_row work apart fit ran with
      | ended outcome => exact outcome
      | onward next between steps passes part range keys calls rest =>
          have fitNext := fit.steps work apart steps
          have left : (plan.keysOf scope table next.part).length <
              fuel + callsIn between next.part := by
            rw [part]
            omega
          have ended := inductionHypothesis fitNext left rest
          exact ended.behind steps passes part range (by omega)

def phaseOf : WorkerStage ω → WorkerPhase ω
  | .scanning setup => .seeking setup
  | .stopped worker => .finishing worker
  | .gone => .gone

/-- The counters once the end of the work on a partition is counted. -/
def countPartition (metered : Metered σ) (ending : PartitionEnd) : Metered σ :=
  if Scanner.endedWell ending then metered else metered.count ScanMetrics.fail

def PartitionEnded (plan : ScanPlan σ ω) (setup : WorkerSetup ω) (phase : WorkerPhase ω)
    (shared : ScanShared σ) (metered : Metered σ) (ending : PartitionEnd) (keys : Nat) : Prop :=
  ∃ after, plan.WorkerSteps phase shared (phaseOf (Scanner.stageAfter setup ending)) after ∧
    Passes shared (countPartition metered ending) keys after

/-- What the next batch of a partition comes to: the partition ends, or goes on behind the batch,
which then has had calls. -/
inductive NextBatch (plan : ScanPlan σ ω) (setup : WorkerSetup ω) (fuel part : Nat)
    (phase : WorkerPhase ω) (shared : ScanShared σ) (ending : PartitionEnd) (keys : Nat)
    (metered : Metered σ) : Prop where
  | ended (outcome : PartitionEnded plan setup phase shared metered ending keys)
  | onward (rest : KeyRange) (between : ScanShared σ) (reported others : Nat)
      (steps : plan.WorkerSteps phase shared (.opening setup part rest) between)
      (passes : Passes shared between.metered reported between)
      (calls : callsIn shared part < callsIn between part) (total : keys = reported + others)
      (ran : plan.scanner.scanPartition plan.job plan.store setup fuel rest between.metered =
        ((ending, others), metered))

/-- What a full batch that is through comes to. -/
theorem closeBatch_steps {setup : WorkerSetup ω} {fuel part reported : Nat} {walk : Manager.Scan}
    {last : Bytes} {phase : WorkerPhase ω} {shared after : ScanShared σ} {handled : Metered σ}
    (full : reported = plan.scanner.options.keysPerBatch)
    (steps : plan.WorkerSteps phase shared (.drawn setup ⟨part, walk, reported, some last⟩ none)
      after)
    (passes : Passes shared handled 0 after) (calls : callsIn shared part < callsIn after part)
    {ending : PartitionEnd} {keys : Nat} {metered : Metered σ}
    (ran : (match Scanner.resumeAfter walk.range last with
      | .error failure => ((PartitionEnd.aborted failure, reported), handled)
      | .ok rest =>
        let ((ending, others), metered) :=
          plan.scanner.scanPartition plan.job plan.store setup fuel rest handled
        ((ending, reported + others), metered)) = ((ending, keys), metered)) :
    NextBatch plan setup fuel part phase shared ending keys metered := by
  have next : plan.resumption? ⟨part, walk, reported, some last⟩ =
      some (Scanner.resumeAfter walk.range last) := by
    simp [resumption?, full]
  have reports := passes.report reported
  cases resumed : Scanner.resumeAfter walk.range last with
  | error failure =>
      rw [resumed] at ran next
      obtain ⟨isEnd, rfl⟩ := Prod.mk.inj ran
      obtain ⟨rfl, rfl⟩ := Prod.mk.inj isEnd
      refine .ended ⟨_, steps.tail (.stuck next), ?_, reports.reported, reports.taken⟩
      exact congrArg (Metered.count ScanMetrics.fail) passes.metered
  | ok rest =>
      rw [resumed] at ran next
      dsimp only at ran
      rcases others : plan.scanner.scanPartition plan.job plan.store setup fuel rest handled with
        ⟨⟨lastEnd, lastKeys⟩, lastMetered⟩
      rw [others] at ran
      obtain ⟨isEnd, rfl⟩ := Prod.mk.inj ran
      obtain ⟨rfl, rfl⟩ := Prod.mk.inj isEnd
      rw [← passes.metered] at others
      exact .onward rest (after.report reported) reported lastKeys (steps.tail (.resumed next))
        ⟨rfl, reports.reported, reports.taken⟩ calls rfl others

theorem scanPartition_batch (work : ScanWork store.toScanView plan.job scope changes)
    (apart : plan.Apart) {setup : WorkerSetup ω} {part : Nat}
    (small : (plan.keysOf scope table part).length < Scanner.keyBound) {fuel : Nat}
    {range : KeyRange} {shared : ScanShared σ}
    (fit : Fit plan store.toScanView scope changes table (.opening setup part range) shared)
    {ending : PartitionEnd} {keys : Nat} {metered : Metered σ}
    (ran : plan.scanner.scanPartition plan.job plan.store setup (fuel + 1) range shared.metered =
      ((ending, keys), metered)) :
    NextBatch plan setup fuel part (.opening setup part range) shared ending keys metered := by
  unfold Scanner.scanPartition at ran
  rcases opened : plan.scanner.openBatch plan.store setup range shared.metered.world with
    ⟨failure | walk, between⟩
  · rw [opened] at ran
    obtain ⟨isEnd, rfl⟩ := Prod.mk.inj ran
    obtain ⟨rfl, rfl⟩ := Prod.mk.inj isEnd
    exact .ended ⟨_, (WorkerStep.unopened opened).single, rfl, rfl, rfl⟩
  rw [opened] at ran
  dsimp only at ran
  obtain ⟨-, opens⟩ := Scanner.openBatch_result store setup range fit.ledger.ready opened
  obtain ⟨positive, isWalk⟩ := opens walk rfl
  have first : plan.WorkerSteps (.opening setup part range) shared
      (.walking setup ⟨part, walk, 0, none⟩) (shared.withWorld between) :=
    (WorkerStep.opened opened).single
  rcases scanned : plan.scanner.scanBatch plan.job plan.store setup Scanner.keyBound 0 none walk
    { shared.metered with world := between } with ⟨ended, handled⟩
  rw [scanned] at ran
  have batchEnded := scanBatch_steps work apart (fit.steps work apart first)
    (Nat.lt_of_lt_of_le small (Nat.le_add_right _ _)) scanned
  cases ended with
  | aborted | crashed | cancelled =>
      obtain ⟨after, steps, passes⟩ := batchEnded
      obtain ⟨isEnd, rfl⟩ := Prod.mk.inj ran
      obtain ⟨rfl, rfl⟩ := Prod.mk.inj isEnd
      exact .ended ⟨after, first.trans steps, passes.metered, passes.reported, passes.taken⟩
  | through reported last =>
      obtain ⟨walked, after, sameRange, steps, passes, counted⟩ := batchEnded
      have drawn := first.trans steps
      have onward : Passes shared handled 0 after :=
        ⟨passes.metered, passes.reported, passes.taken⟩
      by_cases full : reported = plan.scanner.options.keysPerBatch ∧ last.isSome = true
      · obtain ⟨full, some⟩ := full
        obtain ⟨key, rfl⟩ := Option.isSome_iff_exists.1 some
        have isRange : walked.range = range := by rw [sameRange, isWalk]
        dsimp only at ran
        rw [if_pos full, ← isRange] at ran
        have calls : callsIn shared part < callsIn after part := by
          change callsIn shared part + reported = callsIn after part + 0 at counted
          omega
        exact closeBatch_steps full drawn onward calls ran
      · have through : plan.resumption? ⟨part, walked, reported, last⟩ = none := by
          unfold resumption?
          split
          · rename_i isFull
            cases last with
            | none => rfl
            | some key => exact absurd ⟨isFull, rfl⟩ full
          · rfl
        have ended : ((PartitionEnd.through, reported), handled) = ((ending, keys), metered) := by
          cases last with
          | none => exact ran
          | some key =>
              dsimp only at ran
              rwa [if_neg fun isFull => full ⟨isFull, rfl⟩] at ran
        obtain ⟨isEnd, rfl⟩ := Prod.mk.inj ended
        obtain ⟨rfl, rfl⟩ := Prod.mk.inj isEnd
        exact .ended ⟨_, drawn.tail (.ended through), onward.report reported⟩

theorem scanPartition_steps (work : ScanWork store.toScanView plan.job scope changes)
    (apart : plan.Apart) {setup : WorkerSetup ω} {part : Nat}
    (small : (plan.keysOf scope table part).length < Scanner.keyBound) {fuel : Nat}
    {range : KeyRange} {shared : ScanShared σ}
    (fit : Fit plan store.toScanView scope changes table (.opening setup part range) shared)
    (enough : (plan.keysOf scope table part).length < fuel + callsIn shared part)
    {ending : PartitionEnd} {keys : Nat} {metered : Metered σ}
    (ran : plan.scanner.scanPartition plan.job plan.store setup fuel range shared.metered =
      ((ending, keys), metered)) :
    PartitionEnded plan setup (.opening setup part range) shared metered ending keys := by
  -- The induction is on the number of batches; every batch but the last one has calls.
  induction fuel generalizing range shared keys with
  | zero =>
      have due := Due.length fit.good.2.2
      omega
  | succ fuel inductionHypothesis =>
      cases scanPartition_batch work apart small fit ran with
      | ended outcome => exact outcome
      | onward rest between reported others steps passes calls total again =>
          obtain ⟨after, restSteps, restPasses⟩ :=
            inductionHypothesis (fit.steps work apart steps) (by omega) again
          have whole := passes.trans restPasses
          exact ⟨after, steps.trans restSteps, total ▸ whole⟩

end ScanPlan

/-! ### All workers -/

namespace Scanner

open ScanPlan ScanWorld

variable {σ ω : Type} {plan : ScanPlan σ ω} {interferes : σ → σ → Prop}

theorem steps_behind {shared after : ScanShared σ} (front back : List (WorkerPhase ω))
    {phase next : WorkerPhase ω} (steps : plan.WorkerSteps phase shared next after) :
    Steps plan interferes ⟨shared, front ++ phase :: back⟩ ⟨after, front ++ next :: back⟩ := by
  have present : (front ++ phase :: back)[front.length]? = some phase := by simp
  have moved : Steps plan interferes ⟨shared, front ++ phase :: back⟩
      ⟨after, (front ++ phase :: back).set front.length next⟩ := steps_worker present steps
  simpa using moved

theorem startWorker_steps (shared : ScanShared σ) {stage : WorkerStage ω} {metered : Metered σ}
    (ran : startWorker plan.job plan.jobSettings plan.graphSettings shared.metered =
      (stage, metered)) :
    ∃ after, plan.WorkerSteps .fresh shared (phaseOf stage) after ∧
      Passes shared metered 0 after := by
  unfold startWorker at ran
  dsimp only at ran
  rcases made : plan.job.create shared.metered.world with ⟨failure | worker, between⟩
  · rw [Action.bind_of_error (Metered.onWorld_of_run made)] at ran
    obtain ⟨rfl, rfl⟩ := Prod.mk.inj ran
    exact ⟨_, (WorkerStep.uncreated made).single, rfl, rfl, rfl⟩
  rw [Action.bind_of_ok (Metered.onWorld_of_run made)] at ran
  have first : plan.WorkerSteps .fresh shared (.created worker) (shared.withWorld between) :=
    (WorkerStep.created made).single
  rcases begun : plan.job.start plan.jobSettings plan.graphSettings worker
    { shared.metered with world := between } with ⟨failure | ready, begunMetered⟩
  · rw [begun] at ran
    obtain ⟨rfl, rfl⟩ := Prod.mk.inj ran
    exact ⟨_, first.tail (.unstarted begun), rfl, rfl, rfl⟩
  · rw [begun] at ran
    dsimp only at ran
    have second := first.tail (.started begun)
    unfold setUp at ran
    cases queries : plan.job.queries ready with
    | nil =>
        rw [queries] at ran
        obtain ⟨rfl, rfl⟩ := Prod.mk.inj ran
        exact ⟨_, second.tail (.unequipped queries), rfl, rfl, rfl⟩
    | cons driver others =>
        rw [queries] at ran
        obtain ⟨rfl, rfl⟩ := Prod.mk.inj ran
        exact ⟨_, second.tail (.setUp queries), rfl, rfl, rfl⟩

theorem startWorkers_steps (interferes : σ → σ → Prop) (count : Nat)
    (front : List (WorkerPhase ω)) (shared : ScanShared σ)
    {stages : List (WorkerStage ω)} {metered : Metered σ}
    (ran : startWorkers plan.job plan.jobSettings plan.graphSettings count shared.metered =
      (stages, metered)) :
    ∃ after, Steps plan interferes ⟨shared, front ++ List.replicate count .fresh⟩
        ⟨after, front ++ stages.map phaseOf⟩ ∧ Passes shared metered 0 after := by
  -- The induction is on the workers that are still to be started, behind those that are.
  induction count generalizing front shared stages metered with
  | zero =>
      obtain ⟨rfl, rfl⟩ := Prod.mk.inj ran
      exact ⟨shared, .refl, rfl, rfl, rfl⟩
  | succ count inductionHypothesis =>
      rcases one : startWorker plan.job plan.jobSettings plan.graphSettings shared.metered with
        ⟨stage, between⟩
      rcases rest : startWorkers plan.job plan.jobSettings plan.graphSettings count between with
        ⟨others, last⟩
      have both : (stage :: others, last) = (stages, metered) := by
        rw [← ran]
        show _ = (match startWorker plan.job plan.jobSettings plan.graphSettings shared.metered with
          | (stage, between) =>
            match startWorkers plan.job plan.jobSettings plan.graphSettings count between with
            | (others, last) => (stage :: others, last))
        rw [one]
        dsimp only
        rw [rest]
      obtain ⟨rfl, rfl⟩ := Prod.mk.inj both
      obtain ⟨middle, steps, passes⟩ := startWorker_steps shared one
      rw [← passes.metered] at rest
      obtain ⟨after, others, othersPass⟩ :=
        inductionHypothesis (front ++ [phaseOf stage]) middle rest
      refine ⟨after, ?_, passes.trans othersPass⟩
      rw [List.append_assoc, List.append_assoc] at others
      exact (steps_behind front (List.replicate count .fresh) steps).trans others

/-- The phase of a worker that will take no more partitions. -/
def phaseAtEnd : WorkerStage ω → WorkerPhase ω
  | .scanning setup => .finishing setup.worker
  | .stopped worker => .finishing worker
  | .gone => .gone

/-- Workers that find nothing more to take go to be finished. -/
theorem halt_steps (interferes : σ → σ → Prop) (shared : ScanShared σ)
    (stages : List (WorkerStage ω))
    (enough : ∀ setup, .scanning setup ∈ stages →
      plan.scanner.isCancelled shared.world = true ∨ plan.ranges.length ≤ shared.taken)
    (front : List (WorkerPhase ω)) :
    Steps plan interferes ⟨shared, front ++ stages.map phaseOf⟩
      ⟨shared, front ++ stages.map phaseAtEnd⟩ := by
  induction stages generalizing front with
  | nil => exact .refl
  | cons stage stages inductionHypothesis =>
      have own : plan.WorkerSteps (phaseOf stage) shared (phaseAtEnd stage) shared := by
        cases stage with
        | scanning setup =>
            exact (WorkerStep.halted (enough setup List.mem_cons_self)).single
        | stopped worker => exact .refl
        | gone => exact .refl
      have rest := inductionHypothesis (fun setup member =>
        enough setup (List.mem_cons_of_mem _ member)) (front ++ [phaseAtEnd stage])
      rw [List.append_assoc, List.append_assoc] at rest
      exact (steps_behind front (stages.map phaseOf) own).trans rest

theorem finishWorkers_steps (interferes : σ → σ → Prop) (stages : List (WorkerStage ω))
    (front : List (WorkerPhase ω)) (shared : ScanShared σ) :
    ∃ after, Steps plan interferes ⟨shared, front ++ stages.map phaseAtEnd⟩
        ⟨after, front ++ stages.map fun _ => .gone⟩ ∧
      Passes shared (finishWorkers plan.job stages shared.metered).2 0 after := by
  induction stages generalizing front shared with
  | nil => exact ⟨shared, .refl, rfl, rfl, rfl⟩
  | cons stage stages inductionHypothesis =>
      have finish : ∀ worker : ω, ∃ between,
          plan.WorkerSteps (.finishing worker) shared .gone between ∧
          Passes shared (finishWorkers plan.job [.stopped worker] shared.metered).2 0 between := by
        intro worker
        rcases finished : plan.job.finish worker shared.metered with ⟨_ | _, metered⟩
        · refine ⟨_, (WorkerStep.unfinished finished).single, ?_, rfl, rfl⟩
          simp only [finishWorkers, finished]
          rfl
        · refine ⟨_, (WorkerStep.finished finished).single, ?_, rfl, rfl⟩
          simp only [finishWorkers, finished]
          rfl
      obtain ⟨between, own, passes⟩ : ∃ between,
          plan.WorkerSteps (phaseAtEnd stage) shared .gone between ∧
          Passes shared (finishWorkers plan.job [stage] shared.metered).2 0 between := by
        cases stage with
        | scanning setup => exact finish setup.worker
        | stopped worker => exact finish worker
        | gone => exact ⟨shared, .refl, rfl, rfl, rfl⟩
      obtain ⟨after, rest, restPasses⟩ := inductionHypothesis (front ++ [.gone]) between
      rw [List.append_assoc, List.append_assoc] at rest
      rw [passes.metered] at restPasses
      exact ⟨after, (steps_behind front (stages.map phaseAtEnd) own).trans rest,
        passes.trans restPasses⟩

/-! ### Partitions -/

theorem mem_takers {stages : List (WorkerStage ω)} {index : Nat} {setup : WorkerSetup ω} :
    (index, setup) ∈ takers stages ↔ stages[index]? = some (.scanning setup) := by
  unfold takers
  rw [List.mem_filterMap]
  constructor
  · intro found
    obtain ⟨⟨stage, place⟩, member, isTaker⟩ := found
    have present := List.mem_zipIdx_iff_getElem?.1 member
    cases stage with
    | scanning other =>
        obtain ⟨rfl, rfl⟩ := Prod.mk.inj (Option.some.inj isTaker)
        exact present
    | stopped worker => exact nomatch isTaker
    | gone => exact nomatch isTaker
  · intro present
    exact ⟨(.scanning setup, index), List.mem_zipIdx_iff_getElem?.2 present, rfl⟩

theorem taker?_some {assignment : Nat → Nat} {number index : Nat} {setup : WorkerSetup ω}
    {stages : List (WorkerStage ω)}
    (taker : taker? assignment number stages = some (index, setup)) :
    stages[index]? = some (.scanning setup) :=
  mem_takers.1 (List.mem_of_getElem? taker)

theorem taker?_none {assignment : Nat → Nat} {number : Nat} {stages : List (WorkerStage ω)}
    (nobody : taker? assignment number stages = none) (setup : WorkerSetup ω) :
    .scanning setup ∉ stages := by
  intro member
  obtain ⟨index, present⟩ := List.getElem?_of_mem member
  have taker := mem_takers.2 present
  have positive := List.length_pos_of_mem taker
  have beyond := List.getElem?_eq_none_iff.1 nobody
  have inside := Nat.mod_lt (assignment number) positive
  omega

variable {store : ScanStore plan.scanner plan.store} {scope : ScanScope} {changes : RowChanges}
  {table : Table}

theorem takePartition_steps (work : ScanWork store.toScanView plan.job scope changes)
    (apart : plan.Apart) (small : ∀ part, (plan.keysOf scope table part).length < keyBound)
    {stages : List (WorkerStage ω)} {shared : ScanShared σ}
    (sound : Sound plan store.toScanView scope changes table ⟨shared, stages.map phaseOf⟩)
    {index : Nat} {setup : WorkerSetup ω} (taker : stages[index]? = some (.scanning setup))
    (running : plan.scanner.isCancelled shared.world = false) {range : KeyRange}
    (next : plan.ranges[shared.taken]? = some range) {ending : PartitionEnd} {keys : Nat}
    {metered : Metered σ}
    (ran : plan.scanner.scanPartition plan.job plan.store setup keyBound range shared.metered =
      ((ending, keys), metered)) :
    ∃ after, Steps plan interferes ⟨shared, stages.map phaseOf⟩
        ⟨after, (stages.set index (stageAfter setup ending)).map phaseOf⟩ ∧
      after.metered = countPartition metered ending ∧ after.reported = shared.reported + keys ∧
      after.taken = shared.taken + 1 := by
  have present : (stages.map phaseOf)[index]? = some (.seeking setup) := by
    rw [List.getElem?_map, taker]
    rfl
  have took : plan.WorkerSteps (.seeking setup) shared (.opening setup shared.taken range)
      shared.take := (WorkerStep.took running next).single
  have idle : Fit plan store.toScanView scope changes table (.seeking setup) shared :=
    ⟨sound.ledger, sound.phases index _ present, fun _ is => nomatch is⟩
  obtain ⟨after, steps, passes⟩ := scanPartition_steps work apart (small shared.taken)
    (idle.steps work apart took)
    (Nat.lt_of_lt_of_le (small shared.taken) (Nat.le_add_right _ _)) ran
  refine ⟨after, ?_, passes.metered, passes.reported, passes.taken⟩
  rw [List.map_set]
  exact steps_worker present (took.trans steps)

theorem takePartitions_steps (work : ScanWork store.toScanView plan.job scope changes)
    (keeps : ∀ before after, interferes before after → store.Keeps before after)
    (apart : plan.Apart)
    (small : ∀ part, (plan.keysOf scope table part).length < keyBound)
    (assignment : Nat → Nat) {ranges : List KeyRange} {stages stagesAfter : List (WorkerStage ω)}
    {shared : ScanShared σ}
    (sound : Sound plan store.toScanView scope changes table ⟨shared, stages.map phaseOf⟩)
    (queue : plan.ranges.drop shared.taken = ranges) {keys : Nat} {metered : Metered σ}
    (ran : plan.scanner.takePartitions plan.job plan.store assignment shared.taken ranges stages
      shared.metered = ((stagesAfter, keys), metered)) :
    ∃ after, Steps plan interferes ⟨shared, stages.map phaseOf⟩
        ⟨after, stagesAfter.map phaseOf⟩ ∧
      after.metered = metered ∧ after.reported = shared.reported + keys ∧
      ∀ setup, .scanning setup ∈ stagesAfter →
        plan.scanner.isCancelled after.world = true ∨ plan.ranges.length ≤ after.taken := by
  -- The induction is on the partitions that are still to be taken.
  induction ranges generalizing stages shared keys with
  | nil =>
      obtain ⟨isEnd, rfl⟩ := Prod.mk.inj ran
      obtain ⟨rfl, rfl⟩ := Prod.mk.inj isEnd
      exact ⟨shared, .refl, rfl, rfl, fun _ _ => .inr (List.drop_eq_nil_iff.1 queue)⟩
  | cons range ranges inductionHypothesis =>
      unfold takePartitions at ran
      dsimp only at ran
      by_cases cancelled : plan.scanner.isCancelled shared.metered.world = true
      · rw [if_pos cancelled] at ran
        obtain ⟨isEnd, rfl⟩ := Prod.mk.inj ran
        obtain ⟨rfl, rfl⟩ := Prod.mk.inj isEnd
        exact ⟨shared, .refl, rfl, rfl, fun _ _ => .inl cancelled⟩
      rw [if_neg cancelled] at ran
      cases taker : taker? assignment shared.taken stages with
      | none =>
          rw [taker] at ran
          obtain ⟨isEnd, rfl⟩ := Prod.mk.inj ran
          obtain ⟨rfl, rfl⟩ := Prod.mk.inj isEnd
          exact ⟨shared, .refl, rfl, rfl, fun setup member =>
            absurd member (taker?_none taker setup)⟩
      | some chosen =>
      obtain ⟨index, setup⟩ := chosen
      rw [taker] at ran
      dsimp only at ran
      have next : plan.ranges[shared.taken]? = some range := by
        have first := congrArg (fun queue => queue[0]?) queue
        simpa using first
      have running : plan.scanner.isCancelled shared.world = false := Bool.eq_false_iff.2 cancelled
      rcases scanned : plan.scanner.scanPartition plan.job plan.store setup keyBound range
        shared.metered with ⟨⟨ending, scannedKeys⟩, between⟩
      rw [scanned] at ran
      obtain ⟨middle, moved, counted, reported, taken⟩ := takePartition_steps work apart small sound
        (taker?_some taker) running next scanned
      have queueAfter : plan.ranges.drop middle.taken = ranges := by
        rw [taken, ← List.drop_drop, queue, List.drop_succ_cons, List.drop_zero]
      rcases others : plan.scanner.takePartitions plan.job plan.store assignment middle.taken ranges
        (stages.set index (stageAfter setup ending)) middle.metered with
        ⟨⟨lastStages, lastKeys⟩, lastMetered⟩
      have rest : ((lastStages, scannedKeys + lastKeys), lastMetered) =
          ((stagesAfter, keys), metered) := by
        rw [← ran]
        dsimp only
        rw [taken, counted] at others
        unfold countPartition at others
        rw [others]
      obtain ⟨isEnd, rfl⟩ := Prod.mk.inj rest
      obtain ⟨rfl, rfl⟩ := Prod.mk.inj isEnd
      obtain ⟨after, steps, isMetered, isReported, enough⟩ :=
        inductionHypothesis (sound.steps work apart (moved.mono keeps)) queueAfter others
      refine ⟨after, moved.trans steps, isMetered, ?_, enough⟩
      rw [isReported, reported, Nat.add_assoc]

theorem runWorkers_of_run {scanner : Scanner σ} {job : ScanJob σ ω} {store : StoreRef}
    {assignment : Nat → Nat} {jobSettings graphSettings : Configuration} {ranges : List KeyRange}
    {stages stagesAfter : List (WorkerStage ω)} {keys : Nat} {before between after : Metered σ}
    (started : startWorkers job jobSettings graphSettings scanner.options.workers before =
      (stages, between))
    (taken : scanner.takePartitions job store assignment 0 ranges stages between =
      ((stagesAfter, keys), after)) :
    scanner.runWorkers job store assignment jobSettings graphSettings ranges before =
      (keys, (finishWorkers job stagesAfter after).2) := by
  unfold runWorkers
  simp only [bind, StateT.bind, started, taken]
  rfl

/-- A run of all workers, in which they take turns, is a complete scan. -/
theorem runWorkers_steps (plan : ScanPlan σ ω) {store : ScanStore plan.scanner plan.store}
    (work : ScanWork store.toScanView plan.job scope changes)
    (keeps : ∀ before after, interferes before after → store.Keeps before after)
    (apart : plan.Apart) {initial : σ} (isReady : store.ready initial)
    (small : (store.table initial).size < keyBound) (assignment : Nat → Nat) :
    ∃ world : ScanWorld σ ω, Steps plan interferes (start plan initial) world ∧
      world.Complete ∧
      plan.scanner.runWorkers plan.job plan.store assignment plan.jobSettings plan.graphSettings
        plan.ranges ⟨initial, .zero⟩ = (world.shared.reported, world.shared.metered) := by
  have bounded : ∀ part, (plan.keysOf scope (store.table initial) part).length < keyBound :=
    fun part => Nat.lt_of_le_of_lt (plan.length_keysOf_le scope _ part) small
  rcases started : startWorkers plan.job plan.jobSettings plan.graphSettings
    plan.scanner.options.workers (start plan initial).shared.metered with ⟨stages, afterStart⟩
  obtain ⟨first, firstSteps, firstPasses⟩ :=
    startWorkers_steps interferes plan.scanner.options.workers [] (start plan initial).shared
      started
  rw [List.nil_append, List.nil_append] at firstSteps
  have sound := Steps.sound work apart isReady (firstSteps.mono keeps)
  rcases taken : plan.scanner.takePartitions plan.job plan.store assignment 0 plan.ranges stages
    afterStart with ⟨⟨stagesAfter, keys⟩, afterTaking⟩
  have none : first.taken = 0 := firstPasses.taken
  have number := taken
  rw [← none, ← firstPasses.metered] at number
  obtain ⟨second, secondSteps, secondMetered, secondReported, enough⟩ :=
    takePartitions_steps work keeps apart bounded assignment sound (by rw [none]; rfl) number
  have halted := halt_steps interferes second stagesAfter enough []
  obtain ⟨last, lastSteps, lastPasses⟩ :=
    finishWorkers_steps interferes stagesAfter [] second
  refine ⟨⟨last, stagesAfter.map fun _ => .gone⟩, ?_, ?_, ?_⟩
  · exact ((firstSteps.trans secondSteps).trans halted).trans lastSteps
  · intro phase member
    obtain ⟨_, _, same⟩ := List.mem_map.1 member
    exact same.symm
  · have reported : keys = last.reported := by
      rw [lastPasses.reported, secondReported, firstPasses.reported]
      simp [start]
    have metered : (finishWorkers plan.job stagesAfter afterTaking).2 = last.metered := by
      rw [← secondMetered, lastPasses.metered]
    have ran := runWorkers_of_run started taken
    rw [reported, metered] at ran
    exact ran

end Scanner

/-! ### Scans -/

theorem Scanner.checkShape_apply {σ : Type} {options : ScanOptions} (manned : 0 < options.workers)
    (batched : 0 < options.keysPerBatch) (state : σ) :
    (Action.ofResult (checkShape options) : Action σ Unit) state = (.ok (), state) := by
  have fits : ¬ (options.workers = 0 ∨ options.keysPerBatch = 0) := by omega
  simp [checkShape, fits]

/-- A scan for a job that cannot run ends before the store is opened. -/
theorem Scanner.scan_of_invalid {σ ω : Type} {scanner : Scanner σ} {job : ScanJob σ ω}
    (manned : 0 < scanner.options.workers) (batched : 0 < scanner.options.keysPerBatch)
    {failure : StoreError} {initial after : σ}
    (invalid : job.validate initial = (.error failure, after)) (assignment : Nat → Nat)
    (range : KeyRange) (jobSettings graphSettings : Configuration) :
    scanner.scan job assignment range jobSettings graphSettings initial =
      (.error failure, after) := by
  unfold scan
  rw [Action.bind_of_ok (checkShape_apply manned batched initial), Action.bind_of_error invalid]

/-- A scan that gets as far as its workers reports what a complete run of its plan reports,
whichever worker takes which partition. The surroundings need not interfere in such a run. -/
theorem Scanner.scan_steps {σ ω : Type} {scanner : Scanner σ} {job : ScanJob σ ω}
    {reference : StoreRef} {scope : ScanScope} {changes : RowChanges}
    (store : ScanStore scanner reference)
    (work : ScanWork store.toScanView job scope changes) {interferes : σ → σ → Prop}
    (keeps : ∀ before after, interferes before after → store.Keeps before after)
    (manned : 0 < scanner.options.workers) (batched : 0 < scanner.options.keysPerBatch)
    {name : String} {initial validated opened : σ}
    (valid : job.validate initial = (.ok name, validated))
    (acquired : scanner.manager.openStore name validated = (.ok reference, opened))
    (isReady : store.ready opened) (small : (store.table opened).size < keyBound)
    (assignment : Nat → Nat) (range : KeyRange) (jobSettings graphSettings : Configuration) :
    let plan := scanner.plan job reference range jobSettings graphSettings
    ∃ world : ScanWorld σ ω,
      ScanWorld.Steps plan interferes (ScanWorld.start plan opened) world ∧ world.Complete ∧
      scanner.scan job assignment range jobSettings graphSettings initial =
        (.ok (world.report plan), world.shared.world) := by
  intro plan
  have apart : plan.Apart :=
    (scanner.plan_tiles job reference range jobSettings graphSettings).apart
  obtain ⟨world, steps, complete, ran⟩ :=
    runWorkers_steps plan work keeps apart isReady small assignment
  refine ⟨world, steps, complete, ?_⟩
  have split : (Action.ofResult (range.split (max scanner.options.partitions
      scanner.options.workers)) : Action σ (List KeyRange)) opened = (.ok plan.ranges, opened) := by
    rw [scanner.plan_split job reference range jobSettings graphSettings]
    rfl
  unfold scan
  rw [Action.bind_of_ok (checkShape_apply manned batched initial), Action.bind_of_ok valid,
    Action.bind_of_ok acquired]
  dsimp only
  rw [Action.bind_of_ok split]
  change scanner.runWorkers job reference assignment jobSettings graphSettings plan.ranges
    ⟨opened, .zero⟩ = _ at ran
  rw [ran]
  rfl

/-- A scan whose workers take turns is one of the runs of its workers. -/
theorem Scanner.scan_run {σ ω : Type} {scanner : Scanner σ} {job : ScanJob σ ω}
    {reference : StoreRef} {scope : ScanScope} {changes : RowChanges}
    (store : ScanStore scanner reference)
    (work : ScanWork store.toScanView job scope changes) (manned : 0 < scanner.options.workers)
    (batched : 0 < scanner.options.keysPerBatch) {name : String} {initial validated opened : σ}
    (valid : job.validate initial = (.ok name, validated))
    (acquired : scanner.manager.openStore name validated = (.ok reference, opened))
    (isReady : store.ready opened) (small : (store.table opened).size < keyBound)
    (assignment : Nat → Nat) (range : KeyRange) (jobSettings graphSettings : Configuration) :
    let plan := scanner.plan job reference range jobSettings graphSettings
    ∃ world : ScanWorld σ ω,
      ScanWorld.Steps plan store.Keeps (ScanWorld.start plan opened) world ∧ world.Complete ∧
      scanner.scan job assignment range jobSettings graphSettings initial =
        (.ok (world.report plan), world.shared.world) :=
  scan_steps store work (fun _ _ keeps => keeps) manned batched valid acquired isReady small
    assignment range jobSettings graphSettings

end GraphStore
