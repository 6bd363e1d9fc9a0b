import GraphStore.Scan.Scanner

/-!
Contract: a scan whose workers take their steps in any order.

Owns the steps of a worker that are atomic (`ScanPlan.WorkerStep`): being created and started,
taking a partition, opening a batch, asking for a row, looking whether the scan is cancelled,
reading a slice, handling a row, finishing. Any number of workers take them in any order, and
between any two of them the surroundings may act (`ScanWorld.Step`). What a scan reports is read
off a world in which all workers are gone.

Calls and failed chores are noted in a trace that no step depends on.
-/

namespace GraphStore

/-- What the workers of a scan share and never change. -/
structure ScanPlan (σ ω : Type) where
  scanner : Scanner σ
  job : ScanJob σ ω
  store : StoreRef
  jobSettings : Configuration
  graphSettings : Configuration
  ranges : List KeyRange

/-- A walk over a batch of a partition, with the number of keys handled in it and the last one. -/
structure ScanBatch where
  part : Nat
  walk : Manager.Scan
  keys : Nat
  last : Option Bytes

/-- Where a worker stands. A row that has been drawn is looked at only once the worker has seen
that the scan goes on. -/
inductive WorkerPhase (ω : Type) where
  | fresh
  | created (worker : ω)
  | started (worker : ω)
  | seeking (setup : WorkerSetup ω)
  | opening (setup : WorkerSetup ω) (part : Nat) (range : KeyRange)
  | walking (setup : WorkerSetup ω) (batch : ScanBatch)
  | drawn (setup : WorkerSetup ω) (batch : ScanBatch) (row : Option (Result KeyedRow))
  | reading (setup : WorkerSetup ω) (batch : ScanBatch) (row : KeyedRow) (found : RowSlices)
      (left : List Slice)
  | finishing (worker : ω)
  | gone

/-- A call of the job: the partition of its key, the slices it was given, how it ended, and how
many keys its batch had before it. -/
structure ScanCall where
  part : Nat
  key : Bytes
  slices : RowSlices
  ending : Handled
  before : Nat
deriving DecidableEq

/-- What a worker does apart from calling the job. Where a batch is given up, its keys are not
reported. -/
inductive ScanChore where
  | create
  | start
  | setUp
  | openBatch (part : Nat)
  | fetch (part keys : Nat)
  | read (part keys : Nat)
  | resume (part : Nat)
  | finish
deriving DecidableEq

inductive ScanEvent where
  | called (call : ScanCall)
  | failed (chore : ScanChore)
deriving DecidableEq

/-- What the workers of a scan share and change. -/
structure ScanShared (σ : Type) where
  metered : Metered σ
  taken : Nat
  reported : Nat
  trace : List ScanEvent

structure ScanWorld (σ ω : Type) where
  shared : ScanShared σ
  workers : List (WorkerPhase ω)

namespace ScanCall

/-- A call that came back, with success or with a failure. -/
def returned (call : ScanCall) : Bool := call.ending ≠ .crashed

end ScanCall

namespace ScanChore

/-- The partition that a worker leaves when the chore fails. -/
def part? : ScanChore → Option Nat
  | openBatch part => some part
  | fetch part _ => some part
  | read part _ => some part
  | resume part => some part
  | _ => none

/-- The keys that had been handled in the batch that is given up. -/
def unreported : ScanChore → Nat
  | fetch _ keys => keys
  | read _ keys => keys
  | _ => 0

end ScanChore

namespace ScanEvent

def call? : ScanEvent → Option ScanCall
  | called call => some call
  | failed _ => none

def isFailure : ScanEvent → Bool
  | called call => call.ending ≠ .done
  | failed _ => true

/-- Whether a worker gives up the partition. -/
def aborts (part : Nat) : ScanEvent → Bool
  | called call => call.part = part && call.ending = .crashed
  | failed chore => chore.part? = some part

/-- The keys handled in a batch that is given up. -/
def unreported : ScanEvent → Nat
  | called call => if call.ending = .crashed then call.before else 0
  | failed chore => chore.unreported

end ScanEvent

namespace ScanShared

variable {σ : Type}

def world (shared : ScanShared σ) : σ := shared.metered.world

def metrics (shared : ScanShared σ) : ScanMetrics := shared.metered.metrics

def calls (shared : ScanShared σ) : List ScanCall := shared.trace.filterMap ScanEvent.call?

def withMetered (shared : ScanShared σ) (metered : Metered σ) : ScanShared σ :=
  { shared with metered := metered }

def withWorld (shared : ScanShared σ) (world : σ) : ScanShared σ :=
  shared.withMetered { shared.metered with world := world }

def fail (shared : ScanShared σ) (chore : ScanChore) : ScanShared σ :=
  { shared with
    metered := shared.metered.count ScanMetrics.fail
    trace := shared.trace ++ [.failed chore] }

def handle (shared : ScanShared σ) (call : ScanCall) : ScanShared σ :=
  { shared with
    metered := shared.metered.count fun metrics =>
      if call.ending = .done then metrics.succeed else metrics.fail
    trace := shared.trace ++ [.called call] }

def report (shared : ScanShared σ) (keys : Nat) : ScanShared σ :=
  { shared with reported := shared.reported + keys }

def take (shared : ScanShared σ) : ScanShared σ := { shared with taken := shared.taken + 1 }

@[simp] theorem calls_fail (shared : ScanShared σ) (chore : ScanChore) :
    (shared.fail chore).calls = shared.calls := by
  simp [calls, fail, List.filterMap_cons, ScanEvent.call?]

@[simp] theorem calls_handle (shared : ScanShared σ) (call : ScanCall) :
    (shared.handle call).calls = shared.calls ++ [call] := by
  simp [calls, handle, ScanEvent.call?]

end ScanShared

namespace ScanBatch

def handled (batch : ScanBatch) (key : Bytes) : ScanBatch :=
  { batch with keys := batch.keys + 1, last := some key }

end ScanBatch

def Scanner.plan {σ ω : Type} (scanner : Scanner σ) (job : ScanJob σ ω) (store : StoreRef)
    (range : KeyRange) (jobSettings graphSettings : Configuration) : ScanPlan σ ω where
  scanner := scanner
  job := job
  store := store
  jobSettings := jobSettings
  graphSettings := graphSettings
  ranges :=
    ((range.split (max scanner.options.partitions scanner.options.workers)).toOption).getD []

namespace ScanPlan

variable {σ ω : Type}

/-- Where the keys of a batch that has ended leave off, if it was a full one. -/
def resumption? (plan : ScanPlan σ ω) (batch : ScanBatch) : Option (Result KeyRange) :=
  if batch.keys = plan.scanner.options.keysPerBatch then
    batch.last.map (Scanner.resumeAfter batch.walk.range)
  else none

/-- The call that a worker makes once all slices of a row are read. -/
def call (setup : WorkerSetup ω) (batch : ScanBatch) (row : KeyedRow) (found : RowSlices)
    (ending : Handled) : ScanCall :=
  ⟨batch.part, row.key, found.put setup.driver row.entries, ending, batch.keys⟩

/-- An atomic step of a worker, with what it does to the shared state. -/
inductive WorkerStep (plan : ScanPlan σ ω) :
    WorkerPhase ω → ScanShared σ → WorkerPhase ω → ScanShared σ → Prop where
  | created {shared : ScanShared σ} {worker : ω} {after : σ}
      (ran : plan.job.create shared.world = (.ok worker, after)) :
      WorkerStep plan .fresh shared (.created worker) (shared.withWorld after)
  | uncreated {shared : ScanShared σ} {failure : StoreError} {after : σ}
      (ran : plan.job.create shared.world = (.error failure, after)) :
      WorkerStep plan .fresh shared .gone ((shared.withWorld after).fail .create)
  | started {shared : ScanShared σ} {worker ready : ω} {after : Metered σ}
      (ran : plan.job.start plan.jobSettings plan.graphSettings worker shared.metered =
        (.ok ready, after)) :
      WorkerStep plan (.created worker) shared (.started ready) (shared.withMetered after)
  | unstarted {shared : ScanShared σ} {worker : ω} {failure : StoreError} {after : Metered σ}
      (ran : plan.job.start plan.jobSettings plan.graphSettings worker shared.metered =
        (.error failure, after)) :
      WorkerStep plan (.created worker) shared .gone ((shared.withMetered after).fail .start)
  | setUp {shared : ScanShared σ} {worker : ω} {driver : Slice} {others : List Slice}
      (queries : plan.job.queries worker = driver :: others) :
      WorkerStep plan (.started worker) shared
        (.seeking ⟨worker, driver, others, plan.job.filter worker shared.world⟩) shared
  | unequipped {shared : ScanShared σ} {worker : ω} (queries : plan.job.queries worker = []) :
      WorkerStep plan (.started worker) shared (.finishing worker) (shared.fail .setUp)
  | halted {shared : ScanShared σ} {setup : WorkerSetup ω}
      (enough : plan.scanner.isCancelled shared.world = true ∨ plan.ranges.length ≤ shared.taken) :
      WorkerStep plan (.seeking setup) shared (.finishing setup.worker) shared
  | took {shared : ScanShared σ} {setup : WorkerSetup ω} {range : KeyRange}
      (running : plan.scanner.isCancelled shared.world = false)
      (next : plan.ranges[shared.taken]? = some range) :
      WorkerStep plan (.seeking setup) shared (.opening setup shared.taken range) shared.take
  | opened {shared : ScanShared σ} {setup : WorkerSetup ω} {part : Nat} {range : KeyRange}
      {walk : Manager.Scan} {after : σ}
      (ran : plan.scanner.openBatch plan.store setup range shared.world = (.ok walk, after)) :
      WorkerStep plan (.opening setup part range) shared (.walking setup ⟨part, walk, 0, none⟩)
        (shared.withWorld after)
  | unopened {shared : ScanShared σ} {setup : WorkerSetup ω} {part : Nat} {range : KeyRange}
      {failure : StoreError} {after : σ}
      (ran : plan.scanner.openBatch plan.store setup range shared.world = (.error failure, after)) :
      WorkerStep plan (.opening setup part range) shared (.finishing setup.worker)
        ((shared.withWorld after).fail (.openBatch part))
  | drew {shared : ScanShared σ} {setup : WorkerSetup ω} {batch : ScanBatch}
      {row : Option (Result KeyedRow)} {walk : Manager.Scan} {after : σ}
      (ran : batch.walk.next plan.scanner.manager shared.world = (row, walk, after)) :
      WorkerStep plan (.walking setup batch) shared (.drawn setup { batch with walk := walk } row)
        (shared.withWorld after)
  | ended {shared : ScanShared σ} {setup : WorkerSetup ω} {batch : ScanBatch}
      (through : plan.resumption? batch = none) :
      WorkerStep plan (.drawn setup batch none) shared (.seeking setup) (shared.report batch.keys)
  | resumed {shared : ScanShared σ} {setup : WorkerSetup ω} {batch : ScanBatch} {rest : KeyRange}
      (next : plan.resumption? batch = some (.ok rest)) :
      WorkerStep plan (.drawn setup batch none) shared (.opening setup batch.part rest)
        (shared.report batch.keys)
  | stuck {shared : ScanShared σ} {setup : WorkerSetup ω} {batch : ScanBatch}
      {failure : StoreError} (next : plan.resumption? batch = some (.error failure)) :
      WorkerStep plan (.drawn setup batch none) shared (.finishing setup.worker)
        ((shared.report batch.keys).fail (.resume batch.part))
  | cut {shared : ScanShared σ} {setup : WorkerSetup ω} {batch : ScanBatch}
      {row : Result KeyedRow} (cancelled : plan.scanner.isCancelled shared.world = true) :
      WorkerStep plan (.drawn setup batch (some row)) shared (.seeking setup)
        (shared.report batch.keys)
  | broke {shared : ScanShared σ} {setup : WorkerSetup ω} {batch : ScanBatch}
      {failure : StoreError} (running : plan.scanner.isCancelled shared.world = false) :
      WorkerStep plan (.drawn setup batch (some (.error failure))) shared (.finishing setup.worker)
        (shared.fail (.fetch batch.part batch.keys))
  | held {shared : ScanShared σ} {setup : WorkerSetup ω} {batch : ScanBatch} {row : KeyedRow}
      (running : plan.scanner.isCancelled shared.world = false) :
      WorkerStep plan (.drawn setup batch (some (.ok row))) shared
        (.reading setup batch row [] setup.others) shared
  | read {shared : ScanShared σ} {setup : WorkerSetup ω} {batch : ScanBatch} {row : KeyedRow}
      {found : RowSlices} {slice : Slice} {left : List Slice} {entries : List Entry} {after : σ}
      (ran : plan.scanner.manager.getSlice plan.store row.key slice shared.world =
        (.ok entries, after)) :
      WorkerStep plan (.reading setup batch row found (slice :: left)) shared
        (.reading setup batch row (found.put slice entries) left) (shared.withWorld after)
  | unread {shared : ScanShared σ} {setup : WorkerSetup ω} {batch : ScanBatch} {row : KeyedRow}
      {found : RowSlices} {slice : Slice} {left : List Slice} {failure : StoreError} {after : σ}
      (ran : plan.scanner.manager.getSlice plan.store row.key slice shared.world =
        (.error failure, after)) :
      WorkerStep plan (.reading setup batch row found (slice :: left)) shared
        (.finishing setup.worker)
        ((shared.withWorld after).fail (.read batch.part batch.keys))
  | handled {shared : ScanShared σ} {setup : WorkerSetup ω} {batch : ScanBatch} {row : KeyedRow}
      {found : RowSlices} {ending : Handled} {after : Metered σ}
      (ran : plan.job.process setup.worker row.key (found.put setup.driver row.entries)
        shared.metered = (ending, after))
      (survived : ending ≠ .crashed) :
      WorkerStep plan (.reading setup batch row found []) shared
        (.walking setup (batch.handled row.key))
        ((shared.withMetered after).handle (call setup batch row found ending))
  | crashed {shared : ScanShared σ} {setup : WorkerSetup ω} {batch : ScanBatch} {row : KeyedRow}
      {found : RowSlices} {after : Metered σ}
      (ran : plan.job.process setup.worker row.key (found.put setup.driver row.entries)
        shared.metered = (.crashed, after)) :
      WorkerStep plan (.reading setup batch row found []) shared .gone
        ((shared.withMetered after).handle (call setup batch row found .crashed))
  | finished {shared : ScanShared σ} {worker released : ω} {after : Metered σ}
      (ran : plan.job.finish worker shared.metered = (.ok released, after)) :
      WorkerStep plan (.finishing worker) shared .gone (shared.withMetered after)
  | unfinished {shared : ScanShared σ} {worker : ω} {failure : StoreError} {after : Metered σ}
      (ran : plan.job.finish worker shared.metered = (.error failure, after)) :
      WorkerStep plan (.finishing worker) shared .gone
        ((shared.withMetered after).fail .finish)

inductive WorkerSteps (plan : ScanPlan σ ω) (phase : WorkerPhase ω) (shared : ScanShared σ) :
    WorkerPhase ω → ScanShared σ → Prop where
  | refl : WorkerSteps plan phase shared phase shared
  | tail {between after : WorkerPhase ω} {sharedBetween sharedAfter : ScanShared σ}
      (steps : WorkerSteps plan phase shared between sharedBetween)
      (step : plan.WorkerStep between sharedBetween after sharedAfter) :
      WorkerSteps plan phase shared after sharedAfter

theorem WorkerSteps.trans {plan : ScanPlan σ ω} {phase between after : WorkerPhase ω}
    {shared sharedBetween sharedAfter : ScanShared σ}
    (first : plan.WorkerSteps phase shared between sharedBetween)
    (second : plan.WorkerSteps between sharedBetween after sharedAfter) :
    plan.WorkerSteps phase shared after sharedAfter := by
  induction second with
  | refl => exact first
  | tail _ step inductionHypothesis => exact inductionHypothesis.tail step

theorem WorkerStep.single {plan : ScanPlan σ ω} {phase after : WorkerPhase ω}
    {shared sharedAfter : ScanShared σ} (step : plan.WorkerStep phase shared after sharedAfter) :
    plan.WorkerSteps phase shared after sharedAfter :=
  WorkerSteps.refl.tail step

/-- Whatever its surroundings have done, a worker that is not gone can take a step. -/
theorem WorkerStep.progress (plan : ScanPlan σ ω) (shared : ScanShared σ) :
    ∀ phase : WorkerPhase ω, phase ≠ .gone →
      ∃ after sharedAfter, plan.WorkerStep phase shared after sharedAfter := by
  intro phase present
  cases phase with
  | fresh =>
      rcases ran : plan.job.create shared.world with ⟨_ | _, after⟩
      · exact ⟨_, _, .uncreated ran⟩
      · exact ⟨_, _, .created ran⟩
  | created worker =>
      rcases ran : plan.job.start plan.jobSettings plan.graphSettings worker shared.metered with
        ⟨_ | _, after⟩
      · exact ⟨_, _, .unstarted ran⟩
      · exact ⟨_, _, .started ran⟩
  | started worker =>
      cases queries : plan.job.queries worker with
      | nil => exact ⟨_, _, .unequipped queries⟩
      | cons driver others => exact ⟨_, _, .setUp queries⟩
  | seeking setup =>
      cases cancelled : plan.scanner.isCancelled shared.world with
      | true => exact ⟨_, _, .halted (.inl cancelled)⟩
      | false =>
      cases next : plan.ranges[shared.taken]? with
      | none => exact ⟨_, _, .halted (.inr (List.getElem?_eq_none_iff.1 next))⟩
      | some range => exact ⟨_, _, .took cancelled next⟩
  | opening setup part range =>
      rcases ran : plan.scanner.openBatch plan.store setup range shared.world with ⟨_ | _, after⟩
      · exact ⟨_, _, .unopened ran⟩
      · exact ⟨_, _, .opened ran⟩
  | walking setup batch => exact ⟨_, _, .drew rfl⟩
  | drawn setup batch row =>
      cases row with
      | none =>
          cases next : plan.resumption? batch with
          | none => exact ⟨_, _, .ended next⟩
          | some rest =>
              cases rest with
              | error failure => exact ⟨_, _, .stuck next⟩
              | ok range => exact ⟨_, _, .resumed next⟩
      | some row =>
          cases cancelled : plan.scanner.isCancelled shared.world with
          | true => exact ⟨_, _, .cut cancelled⟩
          | false =>
              cases row with
              | error failure => exact ⟨_, _, .broke cancelled⟩
              | ok row => exact ⟨_, _, .held cancelled⟩
  | reading setup batch row found left =>
      cases left with
      | cons slice left =>
          rcases ran : plan.scanner.manager.getSlice plan.store row.key slice shared.world with
            ⟨_ | _, after⟩
          · exact ⟨_, _, .unread ran⟩
          · exact ⟨_, _, .read ran⟩
      | nil =>
          rcases ran : plan.job.process setup.worker row.key (found.put setup.driver row.entries)
            shared.metered with ⟨ending, after⟩
          by_cases survived : ending = .crashed
          · exact ⟨_, _, .crashed (survived ▸ ran)⟩
          · exact ⟨_, _, .handled ran survived⟩
  | finishing worker =>
      rcases ran : plan.job.finish worker shared.metered with ⟨_ | _, after⟩
      · exact ⟨_, _, .unfinished ran⟩
      · exact ⟨_, _, .finished ran⟩
  | gone => exact absurd rfl present

end ScanPlan

namespace ScanWorld

variable {σ ω : Type}

inductive Step (plan : ScanPlan σ ω) (interferes : σ → σ → Prop) :
    ScanWorld σ ω → ScanWorld σ ω → Prop where
  | worker {world : ScanWorld σ ω} {index : Nat} {phase after : WorkerPhase ω}
      {shared : ScanShared σ} (present : world.workers[index]? = some phase)
      (step : plan.WorkerStep phase world.shared after shared) :
      Step plan interferes world ⟨shared, world.workers.set index after⟩
  | interference {world : ScanWorld σ ω} {after : σ}
      (allowed : interferes world.shared.world after) :
      Step plan interferes world ⟨world.shared.withWorld after, world.workers⟩

inductive Steps (plan : ScanPlan σ ω) (interferes : σ → σ → Prop) (world : ScanWorld σ ω) :
    ScanWorld σ ω → Prop where
  | refl : Steps plan interferes world world
  | tail {between after : ScanWorld σ ω} (steps : Steps plan interferes world between)
      (step : Step plan interferes between after) : Steps plan interferes world after

/-- All workers of the scan, none of them started. -/
def start (plan : ScanPlan σ ω) (world : σ) : ScanWorld σ ω :=
  ⟨⟨⟨world, .zero⟩, 0, 0, []⟩, List.replicate plan.scanner.options.workers .fresh⟩

def Complete (world : ScanWorld σ ω) : Prop := ∀ phase ∈ world.workers, phase = .gone

def report (plan : ScanPlan σ ω) (world : ScanWorld σ ω) : ScanReport where
  job := plan.job.name
  metrics := world.shared.metrics
  keysScanned := UInt64.ofNat world.shared.reported
  cancelled := plan.scanner.isCancelled world.shared.world

variable {plan : ScanPlan σ ω} {interferes : σ → σ → Prop}

theorem Steps.trans {world between after : ScanWorld σ ω}
    (first : Steps plan interferes world between) (second : Steps plan interferes between after) :
    Steps plan interferes world after := by
  induction second with
  | refl => exact first
  | tail _ step inductionHypothesis => exact inductionHypothesis.tail step

/-- A run among fewer interferences is a run among more. -/
theorem Steps.mono {allows : σ → σ → Prop} {world after : ScanWorld σ ω}
    (wider : ∀ before after, interferes before after → allows before after)
    (steps : Steps plan interferes world after) : Steps plan allows world after := by
  induction steps with
  | refl => exact .refl
  | tail _ step inductionHypothesis =>
      cases step with
      | interference allowed => exact inductionHypothesis.tail (.interference (wider _ _ allowed))
      | worker present step => exact inductionHypothesis.tail (.worker present step)

/-- The steps of one worker, one directly behind the other, are steps of the scan. -/
theorem steps_worker {shared sharedAfter : ScanShared σ} {workers : List (WorkerPhase ω)}
    {index : Nat} {phase after : WorkerPhase ω} (present : workers[index]? = some phase)
    (steps : plan.WorkerSteps phase shared after sharedAfter) :
    Steps plan interferes ⟨shared, workers⟩ ⟨sharedAfter, workers.set index after⟩ := by
  induction steps with
  | refl =>
      obtain ⟨inside, same⟩ := List.getElem?_eq_some_iff.1 present
      rw [← same, List.set_getElem_self]
      exact .refl
  | @tail between after sharedBetween sharedAfter steps step inductionHypothesis =>
      have inside : index < workers.length := (List.getElem?_eq_some_iff.1 present).1
      have moved : (workers.set index between)[index]? = some between := by simp [inside]
      have last : Step plan interferes ⟨sharedBetween, workers.set index between⟩
          ⟨sharedAfter, (workers.set index between).set index after⟩ := .worker moved step
      rw [List.set_set] at last
      exact inductionHypothesis.tail last

/-- A scan that is not complete can go on. -/
theorem progress {world : ScanWorld σ ω} (working : ¬ world.Complete) :
    ∃ after, Step plan interferes world after := by
  obtain ⟨phase, member, present⟩ : ∃ phase ∈ world.workers, phase ≠ .gone := by
    apply Classical.byContradiction
    intro nobody
    apply working
    intro phase member
    apply Classical.byContradiction
    intro present
    exact nobody ⟨phase, member, present⟩
  obtain ⟨index, found⟩ := List.getElem?_of_mem member
  obtain ⟨after, shared, step⟩ := ScanPlan.WorkerStep.progress plan world.shared phase present
  exact ⟨_, .worker found step⟩

end ScanWorld

end GraphStore
