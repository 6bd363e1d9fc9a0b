import GraphStore.Proofs.Scan.Completion
import GraphStore.Proofs.Scan.Scripted

/-!
Contract: what a scan guarantees, whatever its workers, batches and partitions.

Owns the two main results. A scan in which nothing fails calls its job exactly once for every key
that it is about (`Scanner.covers_once`); and a scan that is reported as completed has done so,
while every failure and every cancellation is reported (`Scanner.completed_means_done`). Both hold
for every order of the workers' steps, and for the scanner under every assignment of partitions.
-/

namespace GraphStore

section Results

variable {σ ω : Type} {scanner : Scanner σ} {job : ScanJob σ ω} {reference : StoreRef}
  {scope : ScanScope}

/-- Exactly-once coverage. While a scan is under way, the surroundings may do anything that leaves
the scanned table alone; each worker may take its next step at any time. -/
theorem Scanner.covers_once (store : ScanStore scanner reference)
    (work : ScanWork store.toScanView job scope .any) (leaves : job.LeavesTotals)
    (manned : 0 < scanner.options.workers) (batched : 0 < scanner.options.keysPerBatch)
    (range : KeyRange) (jobSettings graphSettings : Configuration) {initial : σ}
    (isReady : store.ready initial) (small : (store.table initial).size < Word.count 64) :
    let plan := scanner.plan job reference range jobSettings graphSettings
    (∀ world : ScanWorld σ ω,
      ScanWorld.Steps plan store.Keeps (ScanWorld.start plan initial) world → world.Complete →
      world.shared.Flawless → scanner.isCancelled world.shared.world = false →
      ScanWorld.CoversOnce plan scope (store.table initial) range world) ∧
    ∀ (name : String) (before validated : σ), job.validate before = (.ok name, validated) →
      scanner.manager.openStore name validated = (.ok reference, initial) →
      ∀ assignment, ∃ world : ScanWorld σ ω,
        ScanWorld.Steps plan store.Keeps (ScanWorld.start plan initial) world ∧ world.Complete ∧
        scanner.scan job assignment range jobSettings graphSettings before =
          (.ok (world.report plan), world.shared.world) := by
  intro plan
  have tiles := scanner.plan_tiles job reference range jobSettings graphSettings
  constructor
  · intro world steps complete flawless running
    exact ScanWorld.coversOnce plan work leaves manned tiles isReady
      small steps complete flawless running
  · intro name before validated valid acquired assignment
    exact Scanner.scan_run store work manned batched valid acquired isReady small assignment range
      jobSettings graphSettings

end Results

/-! ### An instance -/

/-- A backend in memory with four rows of one store. -/
def fourRows : Memory :=
  ⟨.ofTables (Log.applyAll [⟨"s", [1], [⟨[1], [7]⟩, ⟨[2], [8]⟩], []⟩, ⟨"s", [2], [⟨[2], [9]⟩], []⟩,
    ⟨"s", [3], [⟨[1], [9]⟩], []⟩, ⟨"s", [4], [⟨[1], [9]⟩], []⟩] .empty), false⟩

/-- A job that reads two slices of every row but the last one; another row is not in the driver. -/
def noting : Script :=
  ⟨"noting", "s", [⟨[1], [2], none⟩, .fullRow], fun key => key ≠ [4], none, none, none, none, [],
    [], none, none⟩

/-- The scan of all keys for the job by two workers, key by key, in three partitions. -/
def notingScanner : Scanner (Memory × ScriptNotes) := Script.scanner Memory.manager ⟨2, 1, 3⟩

def notingStore : ScanStore notingScanner ⟨"s", 0⟩ :=
  Script.scanStore Memory.scanBackend ⟨2, 1, 3⟩ "s" ⟨"s", 0⟩

def notingScope : ScanScope := ⟨⟨[1], [2], none⟩, [.fullRow], fun key => key ≠ [4]⟩

/-- A scan for a scripted job with the same scope. -/
def notingPlan (script : Script) : ScanPlan (Memory × ScriptNotes) Unit :=
  notingScanner.plan (script.job Part.second) ⟨"s", 0⟩ .full .empty .empty

theorem noting_completes : ((notingScanner.scan (noting.job Part.second) id .full .empty .empty
    (fourRows, .empty)).1.toOption.map ScanReport.state) = some .completed := by
  decide +kernel

theorem Scanner.covers_once_fourRows :
    ∃ world : ScanWorld (Memory × ScriptNotes) Unit,
      ScanWorld.Steps (notingPlan noting) notingStore.Keeps
        (.start (notingPlan noting) (fourRows, .empty)) world ∧ world.Complete ∧
      world.shared.Flawless ∧ notingScanner.isCancelled world.shared.world = false ∧
      ScanWorld.CoversOnce (notingPlan noting) notingScope
        (Tables.table fourRows.stores.current "s") .full world := by
  have work : ScanWork notingStore.toScanView (noting.job Part.second) notingScope .any :=
    Script.work noting rfl (Script.keeps_notes Memory.scanBackend ⟨2, 1, 3⟩ "s" ⟨"s", 0⟩)
  have leaves : (notingPlan noting).job.LeavesTotals :=
    Script.leavesTotals noting Part.second
  have isReady : notingStore.ready (fourRows, ScriptNotes.empty) := ⟨rfl, rfl, trivial⟩
  have small : (notingStore.table (fourRows, ScriptNotes.empty)).size < Word.count 64 := by
    decide +kernel
  obtain ⟨covers, runs⟩ := Scanner.covers_once notingStore work leaves (by decide) (by decide)
    .full .empty .empty isReady small
  obtain ⟨world, steps, complete, ran⟩ := runs "s" (fourRows, .empty) (fourRows, .empty) rfl rfl id
  have completed : (world.report (notingPlan noting)).state = .completed := by
    have reported := noting_completes
    rw [ran] at reported
    exact Option.some.inj reported
  have countable := ScanWorld.failures_countable (notingPlan noting) work
    (notingScanner.plan_tiles _ _ _ _ _) isReady (by decide +kernel) steps
  obtain ⟨flawless, running⟩ :=
    (ScanWorld.report_completed_iff leaves steps countable).1 completed
  exact ⟨world, steps, complete, flawless, running, covers world steps complete flawless running⟩

section Results

variable {σ ω : Type} {scanner : Scanner σ} {job : ScanJob σ ω} {reference : StoreRef}
  {scope : ScanScope}

/-- Completed means done. Any operation of the job, any opening of a walk, any page and any slice
may fail at any time, the job may crash on any key, and the scan may be cancelled between any two
steps. -/
theorem Scanner.completed_means_done (store : ScanStore scanner reference)
    (work : ScanWork store.toScanView job scope .any) (leaves : job.LeavesTotals)
    (manned : 0 < scanner.options.workers) (batched : 0 < scanner.options.keysPerBatch)
    (range : KeyRange) (jobSettings graphSettings : Configuration) {initial : σ}
    (isReady : store.ready initial)
    (small : (store.table initial).size + 2 * scanner.options.workers < Word.count 64) :
    let plan := scanner.plan job reference range jobSettings graphSettings
    let Runs := ScanWorld.Steps plan store.Keeps
    (∀ world : ScanWorld σ ω, Runs (ScanWorld.start plan initial) world → world.Complete →
      (world.report plan).state = .completed →
      ScanWorld.CoversOnce plan scope (store.table initial) range world) ∧
    (∀ middle world : ScanWorld σ ω, Runs (ScanWorld.start plan initial) middle →
      Runs middle world →
      (∃ event ∈ middle.shared.trace, event.isFailure = true) ∨
        scanner.isCancelled middle.shared.world = true →
      (world.report plan).state = .failed) ∧
    (∀ (world : ScanWorld σ ω) (part : Nat) (whole : KeyRange),
      Runs (ScanWorld.start plan initial) world → plan.ranges[part]? = some whole →
      (∃ call ∈ world.shared.calls, call.part = part) →
      (∀ phase ∈ world.workers, phase.part? ≠ some part) →
      (∀ event ∈ world.shared.trace, event.aborts part = false) →
      scanner.isCancelled world.shared.world = false →
      ScanCall.keysOf world.shared.calls part = scope.keys (store.table initial) whole) ∧
    ∀ (name : String) (before validated : σ), job.validate before = (.ok name, validated) →
      scanner.manager.openStore name validated = (.ok reference, initial) →
      ∀ assignment, ∃ world : ScanWorld σ ω, Runs (ScanWorld.start plan initial) world ∧
        world.Complete ∧ scanner.scan job assignment range jobSettings graphSettings before =
          (.ok (world.report plan), world.shared.world) := by
  intro plan Runs
  have tiles := scanner.plan_tiles job reference range jobSettings graphSettings
  have sound : ∀ world : ScanWorld σ ω, Runs (ScanWorld.start plan initial) world →
      ScanWorld.Sound plan store.toScanView scope .any (store.table initial) world :=
    fun world steps => steps.sound work tiles.apart isReady
  have counted : ∀ world : ScanWorld σ ω, Runs (ScanWorld.start plan initial) world →
      world.shared.failures < Word.count 64 := fun world steps =>
    ScanWorld.failures_countable plan work tiles isReady small steps
  refine ⟨?_, ?_, ?_, ?_⟩
  · intro world steps complete completed
    obtain ⟨flawless, running⟩ :=
      (ScanWorld.report_completed_iff leaves steps (counted world steps)).1 completed
    exact ScanWorld.coversOnce plan work leaves manned tiles isReady
      (by omega) steps complete flawless running
  · intro middle world steps rest happened
    have whole := steps.trans rest
    have grows := rest.grows work tiles.apart (sound middle steps)
    have notCompleted : (world.report plan).state ≠ .completed := by
      intro completed
      obtain ⟨flawless, running⟩ :=
        (ScanWorld.report_completed_iff leaves whole (counted world whole)).1 completed
      rcases happened with ⟨event, noted, failed⟩ | cancelled
      · rw [flawless event (grows.trace event noted)] at failed
        exact Bool.noConfusion failed
      · have late : plan.scanner.isCancelled world.shared.world = true := grows.cancelled cancelled
        rw [running] at late
        exact Bool.noConfusion late
    unfold ScanReport.state at notCompleted ⊢
    split at notCompleted
    · exact absurd rfl notCompleted
    · rename_i missing
      exact if_neg missing
  · intro world part whole steps isPart called left kept running
    have good := sound world steps
    obtain ⟨call, member, same⟩ := called
    have begun : part < world.shared.taken := by
      apply Nat.lt_of_not_le
      intro beyond
      have none := good.ledger.ahead part beyond
      have inCalls := ScanCall.mem_keysOf member
      rw [same, none] at inCalls
      exact nomatch inCalls
    exact good.called_of_begun isPart begun left kept running
  · intro name before validated valid acquired assignment
    have bounded : (store.table initial).size < Scanner.keyBound := by
      show _ < Word.count 64
      omega
    exact Scanner.scan_run store work manned batched valid acquired isReady bounded assignment
      range jobSettings graphSettings

end Results

/-- The job has the scan cancelled when it comes to the first key. -/
def cancelling : Script := { noting with cancelKey := some [1] }

theorem Scanner.completed_means_done_fourRows :
    (∃ world : ScanWorld (Memory × ScriptNotes) Unit,
      ScanWorld.Steps (notingPlan noting) notingStore.Keeps
        (.start (notingPlan noting) (fourRows, .empty)) world ∧
      (world.report (notingPlan noting)).state = .completed ∧
      ScanWorld.CoversOnce (notingPlan noting) notingScope
        (Tables.table fourRows.stores.current "s") .full world) ∧
    ∃ world : ScanWorld (Memory × ScriptNotes) Unit,
      ScanWorld.Steps (notingPlan cancelling) notingStore.Keeps
        (.start (notingPlan cancelling) (fourRows, .empty)) world ∧
      notingScanner.isCancelled world.shared.world = true ∧
      (world.report (notingPlan cancelling)).state = .failed := by
  have isReady : notingStore.ready (fourRows, ScriptNotes.empty) := ⟨rfl, rfl, trivial⟩
  have small : (notingStore.table (fourRows, ScriptNotes.empty)).size + 2 * 2 < Word.count 64 := by
    decide +kernel
  have guarantee := fun (script : Script) (same : script.queries = noting.queries) =>
    Scanner.completed_means_done notingStore
      (Script.work script same (Script.keeps_notes Memory.scanBackend ⟨2, 1, 3⟩ "s" ⟨"s", 0⟩))
      (Script.leavesTotals script Part.second) (by decide) (by decide) .full .empty .empty isReady
      small
  constructor
  · obtain ⟨covers, -, -, runs⟩ := guarantee noting rfl
    obtain ⟨world, steps, complete, ran⟩ :=
      runs "s" (fourRows, .empty) (fourRows, .empty) rfl rfl id
    have reported := noting_completes
    rw [ran] at reported
    have completed := Option.some.inj reported
    exact ⟨world, steps, completed, covers world steps complete completed⟩
  · obtain ⟨-, fails, -, runs⟩ := guarantee cancelling rfl
    obtain ⟨world, steps, -, ran⟩ :=
      runs "s" (fourRows, .empty) (fourRows, .empty) rfl rfl id
    have cancelled : (notingScanner.scan (cancelling.job Part.second) id .full .empty .empty
        (fourRows, .empty)).2.2.cancelled = true := by
      decide +kernel
    rw [ran] at cancelled
    exact ⟨world, steps, cancelled, fails world world steps .refl (.inr cancelled)⟩

end GraphStore
