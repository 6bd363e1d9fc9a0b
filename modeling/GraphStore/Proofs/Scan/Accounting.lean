import GraphStore.Proofs.Scan.Interleaving
import Mathlib.Algebra.GroupWithZero.Nat

/-!
Contract: what the counters of a scan add up to.

Owns the balance of keys (`ScanWorld.keys_balance`), the bound on failures
(`ScanWorld.failures_le`) and, for jobs that leave the scan's own counters alone
(`ScanJob.LeavesTotals`), the totals (`ScanWorld.totals`). None of them depends on what the stores
or the surroundings do.

Keys are reported batch by batch. A batch that is given up because of a failed page, a failed slice
or a crash is not reported, so the keys handled in it are missing from the report, exactly these.
-/

namespace GraphStore

theorem sum_map_set {α : Type} {members : List α} {index : Nat} {member : α}
    (present : members[index]? = some member) (after : α) (size : α → Nat) :
    ((members.set index after).map size).sum + size member =
      (members.map size).sum + size after := by
  induction members generalizing index with
  | nil => simp at present
  | cons head tail inductionHypothesis =>
      cases index with
      | zero =>
          rw [List.getElem?_cons_zero, Option.some.injEq] at present
          simp only [List.set_cons_zero, List.map_cons, List.sum_cons, present]
          omega
      | succ index =>
          rw [List.getElem?_cons_succ] at present
          have rest := inductionHypothesis present
          simp only [List.set_cons_succ, List.map_cons, List.sum_cons]
          omega

namespace ScanShared

variable {σ : Type}

def returned (shared : ScanShared σ) : Nat := shared.calls.countP ScanCall.returned

/-- The keys handled in batches that were given up. -/
def unreported (shared : ScanShared σ) : Nat := (shared.trace.map ScanEvent.unreported).sum

def successes (shared : ScanShared σ) : Nat := shared.calls.countP fun call => call.ending = .done

def failures (shared : ScanShared σ) : Nat := shared.trace.countP ScanEvent.isFailure

end ScanShared

namespace WorkerPhase

variable {ω : Type}

/-- The keys of a batch that are still to be reported. -/
def inBatch : WorkerPhase ω → Nat
  | walking _ batch => batch.keys
  | drawn _ batch _ => batch.keys
  | reading _ batch _ _ _ => batch.keys
  | _ => 0

def chores : WorkerPhase ω → Nat
  | gone => 0
  | finishing _ => 1
  | _ => 2

end WorkerPhase

namespace ScanPlan.WorkerStep

variable {σ ω : Type} {plan : ScanPlan σ ω} {phase after : WorkerPhase ω}
  {shared sharedAfter : ScanShared σ}

/-- Every key handled is reported, or lost with its batch, or in the batch at hand. -/
theorem keys_balance (step : plan.WorkerStep phase shared after sharedAfter) :
    sharedAfter.reported + sharedAfter.unreported + after.inBatch + shared.returned =
      shared.reported + shared.unreported + phase.inBatch + sharedAfter.returned := by
  cases step <;>
    simp [ScanShared.withMetered, ScanShared.withWorld, ScanShared.fail, ScanShared.handle,
      ScanShared.report, ScanShared.take, ScanShared.unreported, ScanShared.returned,
      ScanShared.calls, List.filterMap_cons, WorkerPhase.inBatch, ScanEvent.unreported,
      ScanEvent.call?, ScanChore.unreported, ScanCall.returned, ScanBatch.handled, call, *] <;>
    omega

/-- A worker has two chores that can fail in its life, and each of them ends a part of it. -/
theorem failures_le (step : plan.WorkerStep phase shared after sharedAfter) :
    sharedAfter.failures + after.chores + shared.calls.length ≤
      shared.failures + phase.chores + sharedAfter.calls.length := by
  cases step <;>
    simp [ScanShared.withMetered, ScanShared.withWorld, ScanShared.fail, ScanShared.handle,
      ScanShared.report, ScanShared.take, ScanShared.failures, ScanShared.calls,
      List.countP_cons, List.filterMap_cons, WorkerPhase.chores, ScanEvent.isFailure,
      ScanEvent.call?] <;>
    (try split) <;> omega

end ScanPlan.WorkerStep

/-- What is said of the counters and the trace goes on to hold, whatever a step does to them. -/
structure ScanPlan.Carries {σ ω : Type} (plan : ScanPlan σ ω) (usable : ω → σ → Prop)
    (holds : ScanShared σ → Prop) : Prop where
  same : ∀ before after, after.metrics = before.metrics → after.trace = before.trace →
    holds before → holds after
  start : ∀ shared worker, holds shared → holds (shared.withMetered
    (plan.job.start plan.jobSettings plan.graphSettings worker shared.metered).2)
  finish : ∀ shared worker, holds shared →
    holds (shared.withMetered (plan.job.finish worker shared.metered).2)
  fail : ∀ shared chore, holds shared → holds (shared.fail chore)
  call : ∀ shared (call : ScanCall) worker, usable worker shared.world →
    call.ending = (plan.job.process worker call.key call.slices shared.metered).1 →
    holds shared → holds ((shared.withMetered
      (plan.job.process worker call.key call.slices shared.metered).2).handle call)

namespace ScanPlan.WorkerStep

variable {σ ω : Type} {plan : ScanPlan σ ω} {phase after : WorkerPhase ω}
  {shared sharedAfter : ScanShared σ}

/-- Keys are counted and failures are noted, but most steps do neither. -/
theorem carries {usable : ω → σ → Prop} {holds : ScanShared σ → Prop}
    (carries : plan.Carries usable holds) (step : plan.WorkerStep phase shared after sharedAfter)
    (equipped : ∀ setup batch row found, phase = .reading setup batch row found [] →
      usable setup.worker shared.world) (held : holds shared) : holds sharedAfter := by
  have unmoved : ∀ after : ScanShared σ, after.metrics = shared.metrics →
      after.trace = shared.trace → holds after := fun after metrics trace =>
    carries.same shared after metrics trace held
  cases step with
  | uncreated ran => exact carries.fail _ _ (unmoved _ rfl rfl)
  | @started _ worker ready left ran =>
      have begun := carries.start shared worker held
      rwa [ran] at begun
  | @unstarted _ worker failure left ran =>
      have begun := carries.start shared worker held
      rw [ran] at begun
      exact carries.fail _ _ begun
  | unequipped queries => exact carries.fail _ _ held
  | unopened ran => exact carries.fail _ _ (unmoved _ rfl rfl)
  | stuck next => exact carries.fail _ _ (unmoved _ rfl rfl)
  | broke running => exact carries.fail _ _ held
  | unread ran => exact carries.fail _ _ (unmoved _ rfl rfl)
  | @handled _ setup batch row found ending left ran survived =>
      have called := carries.call shared (ScanPlan.call setup batch row found ending) setup.worker
        (equipped setup batch row found rfl)
      rw [show plan.job.process setup.worker (ScanPlan.call setup batch row found ending).key
        (ScanPlan.call setup batch row found ending).slices shared.metered = _ from ran] at called
      exact called rfl held
  | @crashed _ setup batch row found left ran =>
      have called := carries.call shared (ScanPlan.call setup batch row found .crashed) setup.worker
        (equipped setup batch row found rfl)
      rw [show plan.job.process setup.worker (ScanPlan.call setup batch row found .crashed).key
        (ScanPlan.call setup batch row found .crashed).slices shared.metered = _ from ran] at called
      exact called rfl held
  | @finished _ worker released left ran =>
      have ended := carries.finish shared worker held
      rwa [ran] at ended
  | @unfinished _ worker failure left ran =>
      have ended := carries.finish shared worker held
      rw [ran] at ended
      exact carries.fail _ _ ended
  | _ => exact unmoved _ rfl rfl

end ScanPlan.WorkerStep

/-! ### Totals -/

def ScanMetrics.SameTotals (before after : ScanMetrics) : Prop :=
  after.successes = before.successes ∧ after.failures = before.failures

namespace ScanMetrics.SameTotals

theorem refl (metrics : ScanMetrics) : metrics.SameTotals metrics := ⟨rfl, rfl⟩

theorem trans {before between after : ScanMetrics} (first : before.SameTotals between)
    (second : between.SameTotals after) : before.SameTotals after :=
  ⟨second.1.trans first.1, second.2.trans first.2⟩

theorem add (metrics : ScanMetrics) (name : String) (count : UInt64) :
    metrics.SameTotals (metrics.add name count) := ⟨rfl, rfl⟩

end ScanMetrics.SameTotals

/-- The job leaves the counters of the scan itself to the scan. -/
structure ScanJob.LeavesTotals {σ ω : Type} (job : ScanJob σ ω) : Prop where
  start : ∀ jobSettings graphSettings worker (metered : Metered σ), metered.metrics.SameTotals
    (job.start jobSettings graphSettings worker metered).2.metrics
  process : ∀ worker key slices (metered : Metered σ), metered.metrics.SameTotals
    (job.process worker key slices metered).2.metrics
  finish : ∀ worker (metered : Metered σ),
    metered.metrics.SameTotals (job.finish worker metered).2.metrics

def ScanShared.Tallied {σ : Type} (shared : ScanShared σ) : Prop :=
  shared.metrics.successes = UInt64.ofNat shared.successes ∧
    shared.metrics.failures = UInt64.ofNat shared.failures

namespace ScanShared.Tallied

variable {σ : Type} {shared : ScanShared σ}

theorem withMetered (tallied : shared.Tallied) {after : Metered σ}
    (same : shared.metered.metrics.SameTotals after.metrics) :
    (shared.withMetered after).Tallied :=
  ⟨same.1.trans tallied.1, same.2.trans tallied.2⟩

theorem fail (tallied : shared.Tallied) (chore : ScanChore) : (shared.fail chore).Tallied := by
  have succeeded : (shared.fail chore).successes = shared.successes := by
    rw [successes, calls_fail, successes]
  have failed : (shared.fail chore).failures = shared.failures + 1 := by
    simp [failures, ScanShared.fail, ScanEvent.isFailure]
  rw [Tallied, succeeded, failed, UInt64.ofNat_add, ← tallied.1, ← tallied.2]
  exact ⟨rfl, rfl⟩

theorem handle (tallied : shared.Tallied) (call : ScanCall) : (shared.handle call).Tallied := by
  have calls : (shared.handle call).successes =
      shared.successes + if call.ending = .done then 1 else 0 := by
    simp [successes, List.countP_cons]
  have events : (shared.handle call).failures =
      shared.failures + if call.ending = .done then 0 else 1 := by
    simp [failures, ScanShared.handle, List.countP_cons, ScanEvent.isFailure]
  rw [Tallied, calls, events, UInt64.ofNat_add, UInt64.ofNat_add, ← tallied.1, ← tallied.2]
  by_cases done : call.ending = .done
  · simp [ScanShared.handle, metrics, Metered.count, ScanMetrics.succeed, done]
  · simp [ScanShared.handle, metrics, Metered.count, ScanMetrics.fail, done]

end ScanShared.Tallied

theorem ScanJob.LeavesTotals.carries {σ ω : Type} {plan : ScanPlan σ ω}
    (leaves : plan.job.LeavesTotals) :
    plan.Carries (fun _ _ => True) ScanShared.Tallied where
  same before after metrics trace tallied := by
    unfold ScanShared.Tallied ScanShared.successes ScanShared.failures ScanShared.calls
    rw [metrics, trace]
    exact tallied
  start shared worker tallied := tallied.withMetered (leaves.start _ _ _ _)
  finish shared worker tallied := tallied.withMetered (leaves.finish _ _)
  fail shared chore tallied := tallied.fail chore
  call shared call worker _ _ tallied := (tallied.withMetered (leaves.process _ _ _ _)).handle call

theorem ScanReport.state_eq_completed {report : ScanReport} :
    report.state = .completed ↔ report.metrics.failures = 0 ∧ report.cancelled = false := by
  unfold state
  split <;> simp_all

/-! ### Whole scans -/

namespace ScanWorld

variable {σ ω : Type} {plan : ScanPlan σ ω} {interferes : σ → σ → Prop} {initial : σ}
  {world : ScanWorld σ ω}

/-- Keys that were handled are reported, given up, or still in the batch of a worker. -/
theorem keys_balance (steps : Steps plan interferes (start plan initial) world) :
    world.shared.reported + world.shared.unreported +
      (world.workers.map WorkerPhase.inBatch).sum = world.shared.returned := by
  induction steps with
  | refl =>
      simp [start, ScanShared.unreported, ScanShared.returned, ScanShared.calls,
        WorkerPhase.inBatch]
  | tail _ step inductionHypothesis =>
      cases step with
      | interference allowed => exact inductionHypothesis
      | @worker index phase after shared present step =>
          have own := step.keys_balance
          have moved := sum_map_set present after WorkerPhase.inBatch
          dsimp only
          omega

/-- What is missing from the report of a complete scan is what was lost. -/
theorem reported_of_complete (steps : Steps plan interferes (start plan initial) world)
    (complete : world.Complete) :
    world.shared.reported + world.shared.unreported = world.shared.returned := by
  have balance := keys_balance steps
  have idle : (world.workers.map WorkerPhase.inBatch).sum = 0 := by
    apply List.sum_eq_zero_iff_forall_eq_nat.2
    intro keys member
    obtain ⟨phase, present, same⟩ := List.mem_map.1 member
    rw [← same, complete phase present]
    rfl
  omega

/-- There are no more failures than calls and two chores for each worker. -/
theorem failures_le (steps : Steps plan interferes (start plan initial) world) :
    world.shared.failures ≤ world.shared.calls.length + 2 * plan.scanner.options.workers := by
  have bounded : world.shared.failures + (world.workers.map WorkerPhase.chores).sum ≤
      world.shared.calls.length + 2 * plan.scanner.options.workers := by
    induction steps with
    | refl =>
        simp [start, ScanShared.failures, ScanShared.calls, WorkerPhase.chores]
        omega
    | tail _ step inductionHypothesis =>
        cases step with
        | interference allowed => exact inductionHypothesis
        | @worker index phase after shared present step =>
            have own := step.failures_le
            have moved := sum_map_set present after WorkerPhase.chores
            dsimp only
            omega
  omega

/-- In every run the counters of a scan are what its trace says. -/
theorem totals (leaves : plan.job.LeavesTotals)
    (steps : Steps plan interferes (start plan initial) world) : world.shared.Tallied := by
  induction steps with
  | refl => exact ⟨rfl, rfl⟩
  | tail _ step inductionHypothesis =>
      cases step with
      | interference allowed => exact inductionHypothesis
      | worker present step =>
          exact step.carries leaves.carries (fun _ _ _ _ _ => trivial) inductionHypothesis

/-- A scan counts as completed exactly when nothing has failed and it is not cancelled, as long as
its failures can be counted. -/
theorem report_completed_iff (leaves : plan.job.LeavesTotals)
    (steps : Steps plan interferes (start plan initial) world)
    (countable : world.shared.failures < Word.count 64) :
    (world.report plan).state = .completed ↔
      (∀ event ∈ world.shared.trace, event.isFailure = false) ∧
        plan.scanner.isCancelled world.shared.world = false := by
  have counted : (world.report plan).metrics.failures = 0 ↔ world.shared.failures = 0 := by
    show world.shared.metrics.failures = 0 ↔ _
    rw [(totals leaves steps).2, ← UInt64.toNat_inj, UInt64.toNat_ofNat_of_lt' countable]
    rfl
  have none : world.shared.failures = 0 ↔
      ∀ event ∈ world.shared.trace, event.isFailure = false := by
    simp [ScanShared.failures, List.countP_eq_zero]
  rw [ScanReport.state_eq_completed, counted, none]
  rfl

end ScanWorld

end GraphStore
