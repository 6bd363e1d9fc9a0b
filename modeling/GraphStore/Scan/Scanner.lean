import GraphStore.Bytes
import GraphStore.KeyRange.Split
import GraphStore.Manager.Basic
import GraphStore.Scan.Basic
import GraphStore.Scan.Job

/-!
Contract: scans of the keys of a store by several workers.

Owns the division of labour. The range is cut into partitions, which the workers take
in order; which worker takes which one is a parameter. A worker walks over a partition
in batches and reports the keys of each batch at its end. A failed row or slice read
ends the worker's part in the scan, and so does a crash, which also keeps it from
finishing; a failure on one key does not.

Cancellation is a flag in the state, which anything that changes the state may set.
-/

namespace GraphStore

/-- A scanner over the stores of a manager. -/
structure Scanner (σ : Type) where
  manager : Manager σ
  options : ScanOptions
  isCancelled : σ → Bool

/-- What a worker needs to take partitions. -/
structure WorkerSetup (ω : Type) where
  worker : ω
  driver : Slice
  others : List Slice
  filter : KeyFilter

inductive WorkerStage (ω : Type) where
  | scanning (setup : WorkerSetup ω)
  /-- It takes no more partitions but will be finished. -/
  | stopped (worker : ω)
  | gone

inductive RowEnd where
  | handled
  | aborted (failure : StoreError)
  | crashed

/-- How a walk over one batch ends, and how many keys it has handled. -/
inductive BatchEnd where
  | through (keys : Nat) (last : Option Bytes)
  | cancelled (keys : Nat)
  | aborted (failure : StoreError)
  | crashed

inductive PartitionEnd where
  | through
  | aborted (failure : StoreError)
  | crashed

namespace Scanner

variable {σ ω : Type}

/-- No scan handles more keys than its counters can count. -/
def keyBound : Nat := Word.count 64

/-- The entries of a row in several slices, up to the first failure. -/
def readSlices (manager : Manager σ) (store : StoreRef) (key : Bytes) :
    (found : RowSlices) → List Slice → Action σ RowSlices
  | found, [] => return found
  | found, slice :: slices => do
    let entries ← manager.getSlice store key slice
    readSlices manager store key (found.put slice entries) slices

/-- Reads the remaining slices of a row and works on it. -/
def handleRow (scanner : Scanner σ) (job : ScanJob σ ω) (store : StoreRef)
    (setup : WorkerSetup ω) (row : KeyedRow) : StateM (Metered σ) RowEnd := fun metered =>
  match readSlices scanner.manager store row.key [] setup.others metered.world with
  | (.error failure, world) => (.aborted failure, { metered with world := world })
  | (.ok slices, world) =>
    let slices := slices.put setup.driver row.entries
    match job.process setup.worker row.key slices { metered with world := world } with
    | (.done, metered) => (.handled, metered.count ScanMetrics.succeed)
    | (.failed _, metered) => (.handled, metered.count ScanMetrics.fail)
    | (.crashed, metered) => (.crashed, metered)

/-- Works on the rows of a walk, at most `fuel` of them; `keys` have been handled so far,
the last of them `last`. -/
def scanBatch (scanner : Scanner σ) (job : ScanJob σ ω) (store : StoreRef)
    (setup : WorkerSetup ω) :
    (fuel keys : Nat) → (last : Option Bytes) → Manager.Scan → StateM (Metered σ) BatchEnd
  | 0, keys, last, _ => return .through keys last
  | fuel + 1, keys, last, scan => fun metered =>
    let (row, scan, world) := scan.next scanner.manager metered.world
    let metered := { metered with world := world }
    match row with
    | none => (.through keys last, metered)
    | some row =>
      if scanner.isCancelled world then (.cancelled keys, metered)
      else
        match row with
        | .error failure => (.aborted failure, metered)
        | .ok row =>
          match scanner.handleRow job store setup row metered with
          | (.handled, metered) =>
            scanBatch scanner job store setup fuel (keys + 1) (some row.key) scan metered
          | (.aborted failure, metered) => (.aborted failure, metered)
          | (.crashed, metered) => (.crashed, metered)

/-- Starts the walk over a batch of keys of a range. -/
def openBatch (scanner : Scanner σ) (store : StoreRef) (setup : WorkerSetup ω)
    (range : KeyRange) : Action σ Manager.Scan := do
  let selector ← Action.ofResult (Selector.new setup.filter scanner.options.keysPerBatch)
  scanner.manager.getKeys store range setup.driver selector

def resumeAfter (range : KeyRange) (last : Bytes) : Result KeyRange :=
  KeyRange.upTo (last ++ [0]) range.stop

/-- Works through a partition in batches, at most `fuel` of them, from `range` on; answers
also how many keys have been reported. -/
def scanPartition (scanner : Scanner σ) (job : ScanJob σ ω) (store : StoreRef)
    (setup : WorkerSetup ω) :
    (fuel : Nat) → KeyRange → StateM (Metered σ) (PartitionEnd × Nat)
  | 0, _ => return (.through, 0)
  | fuel + 1, range => fun metered =>
    match scanner.openBatch store setup range metered.world with
    | (.error failure, world) => ((.aborted failure, 0), { metered with world := world })
    | (.ok scan, world) =>
      match scanner.scanBatch job store setup keyBound 0 none scan
          { metered with world := world } with
      | (.aborted failure, metered) => ((.aborted failure, 0), metered)
      | (.crashed, metered) => ((.crashed, 0), metered)
      | (.cancelled keys, metered) => ((.through, keys), metered)
      | (.through keys none, metered) => ((.through, keys), metered)
      | (.through keys (some last), metered) =>
        if keys = scanner.options.keysPerBatch then
          match resumeAfter range last with
          | .error failure => ((.aborted failure, keys), metered)
          | .ok rest =>
            let ((ending, others), metered) :=
              scanPartition scanner job store setup fuel rest metered
            ((ending, keys + others), metered)
        else ((.through, keys), metered)

/-! ### Workers -/

/-- What a started worker scans with; a job without slices cannot scan. -/
def setUp (job : ScanJob σ ω) (worker : ω) : Action (Metered σ) (WorkerSetup ω) := do
  match job.queries worker with
  | [] => throw (.invalidArgument .noQueries)
  | driver :: others => return ⟨worker, driver, others, job.filter worker (← get).world⟩

def startWorker (job : ScanJob σ ω) (jobSettings graphSettings : Configuration) :
    StateM (Metered σ) (WorkerStage ω) := fun metered =>
  let started : Action (Metered σ) ω := do
    let worker ← Metered.onWorld job.create
    job.start jobSettings graphSettings worker
  match started metered with
  | (.error _, metered) => (.gone, metered.count ScanMetrics.fail)
  | (.ok worker, metered) =>
    match setUp job worker metered with
    | (.ok setup, metered) => (.scanning setup, metered)
    | (.error _, metered) => (.stopped worker, metered.count ScanMetrics.fail)

def startWorkers (job : ScanJob σ ω) (jobSettings graphSettings : Configuration) :
    (count : Nat) → StateM (Metered σ) (List (WorkerStage ω))
  | 0 => return []
  | count + 1 => do
    let stage ← startWorker job jobSettings graphSettings
    let stages ← startWorkers job jobSettings graphSettings count
    return stage :: stages

/-- The positions and set-ups of the workers that take partitions. -/
def takers (stages : List (WorkerStage ω)) : List (Nat × WorkerSetup ω) :=
  (stages.zipIdx).filterMap fun
    | (.scanning setup, index) => some (index, setup)
    | _ => none

/-- The taker that an assignment selects for the partition of a number. -/
def taker? (assignment : Nat → Nat) (number : Nat) (stages : List (WorkerStage ω)) :
    Option (Nat × WorkerSetup ω) :=
  let found := takers stages
  found[assignment number % found.length]?

def stageAfter (setup : WorkerSetup ω) : PartitionEnd → WorkerStage ω
  | .through => .scanning setup
  | .aborted _ => .stopped setup.worker
  | .crashed => .gone

def endedWell : PartitionEnd → Bool
  | .through => true
  | _ => false

/-- Has the partitions taken in order, numbered from `number` on; answers where the workers
stand and how many keys have been reported. -/
def takePartitions (scanner : Scanner σ) (job : ScanJob σ ω) (store : StoreRef)
    (assignment : Nat → Nat) :
    (number : Nat) → List KeyRange → List (WorkerStage ω) →
      StateM (Metered σ) (List (WorkerStage ω) × Nat)
  | _, [], stages => return (stages, 0)
  | number, range :: ranges, stages => fun metered =>
    if scanner.isCancelled metered.world then ((stages, 0), metered)
    else
      match taker? assignment number stages with
      | none => ((stages, 0), metered)
      | some (index, setup) =>
        let ((ending, keys), metered) :=
          scanner.scanPartition job store setup keyBound range metered
        let metered := if endedWell ending then metered else metered.count ScanMetrics.fail
        let ((stages, others), metered) :=
          takePartitions scanner job store assignment (number + 1) ranges
            (stages.set index (stageAfter setup ending)) metered
        ((stages, keys + others), metered)

def finishWorkers (job : ScanJob σ ω) : List (WorkerStage ω) → StateM (Metered σ) Unit
  | [] => return ()
  | stage :: stages => fun metered =>
    let finish (worker : ω) : Metered σ :=
      match job.finish worker metered with
      | (.ok _, metered) => metered
      | (.error _, metered) => metered.count ScanMetrics.fail
    let metered := match stage with
      | .scanning setup => finish setup.worker
      | .stopped worker => finish worker
      | .gone => metered
    finishWorkers job stages metered

/-- Runs the workers over the partitions; answers how many keys have been reported. -/
def runWorkers (scanner : Scanner σ) (job : ScanJob σ ω) (store : StoreRef)
    (assignment : Nat → Nat) (jobSettings graphSettings : Configuration)
    (ranges : List KeyRange) : StateM (Metered σ) Nat := do
  let stages ← startWorkers job jobSettings graphSettings scanner.options.workers
  let (stages, keys) ← scanner.takePartitions job store assignment 0 ranges stages
  finishWorkers job stages
  return keys

/-- Fails unless there is a worker and a key per batch. -/
def checkShape (options : ScanOptions) : Result Unit :=
  if options.workers = 0 ∨ options.keysPerBatch = 0 then
    .error (.invalidArgument (.scanShape options.workers options.keysPerBatch))
  else .ok ()

/-- Scans a range to the end and reports. It fails before any key is read when the
settings, the job or the store are not in order. -/
def scan (scanner : Scanner σ) (job : ScanJob σ ω) (assignment : Nat → Nat)
    (range : KeyRange) (jobSettings graphSettings : Configuration) : Action σ ScanReport := do
  Action.ofResult (checkShape scanner.options)
  let storeName ← job.validate
  let store ← scanner.manager.openStore storeName
  let parts := max scanner.options.partitions scanner.options.workers
  let ranges ← Action.ofResult (range.split parts)
  fun world =>
    let (keys, metered) :=
      scanner.runWorkers job store assignment jobSettings graphSettings ranges
        ⟨world, .zero⟩
    let report : ScanReport :=
      { job := job.name
        metrics := metered.metrics
        keysScanned := UInt64.ofNat keys
        cancelled := scanner.isCancelled metered.world }
    (.ok report, metered.world)

end Scanner

end GraphStore
