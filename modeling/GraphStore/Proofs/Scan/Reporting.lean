import GraphStore.Manager.Interposed
import GraphStore.Proofs.Scan.Outcome

/-!
Contract: how many keys a scan reports as scanned.

Owns the exact count: a complete scan reports the calls that came back, without those in batches
that were given up (`ScanWorld.keysScanned_exact`). A batch is given up when a page or a slice
cannot be read, or the job crashes; then the keys handled in it are missing
(`Scanner.keysScanned_omits_batch`).

Stores whose reads fail as planned can be scanned like all others (`ScanStore.disturbed`).
-/

namespace GraphStore

/-- The count of a report, whatever the stores, the job and the surroundings do: it is exact just
when no batch with handled keys was given up. -/
theorem ScanWorld.keysScanned_exact {σ ω : Type} (plan : ScanPlan σ ω) (interferes : σ → σ → Prop)
    {initial : σ} {world : ScanWorld σ ω} (steps : Steps plan interferes (start plan initial) world)
    (complete : world.Complete) (countable : world.shared.returned < Word.count 64) :
    (world.report plan).keysScanned.toNat + world.shared.unreported = world.shared.returned ∧
      ((world.report plan).keysScanned.toNat = world.shared.returned ↔
        ∀ event ∈ world.shared.trace, event.unreported = 0) := by
  have balance := reported_of_complete steps complete
  have counted : (world.report plan).keysScanned.toNat = world.shared.reported := by
    apply UInt64.toNat_ofNat_of_lt'
    apply Nat.lt_of_le_of_lt _ countable
    omega
  have nothing : world.shared.unreported = 0 ↔
      ∀ event ∈ world.shared.trace, event.unreported = 0 := by
    unfold ScanShared.unreported
    rw [List.sum_eq_zero_iff_forall_eq_nat]
    simp
  rw [counted, ← nothing]
  constructor <;> omega

theorem ScanShared.successes_le_returned {σ : Type} (shared : ScanShared σ) :
    shared.successes ≤ shared.returned := by
  apply List.countP_mono_left
  intro call _ done
  simp_all [ScanCall.returned]

/-! ### Disturbed stores -/

namespace Interposer

variable {σ α : Type}

/-- A call meets a planned failure, or runs as ever. -/
theorem guarded_apply (call : CallKind) (name : Option String) (proceed : Action (σ × Interposer) α)
    (whole : σ × Interposer) :
    guarded Part.second call name none proceed whole =
      match (whole.2.register call name).1 with
      | some (.failure cause) => (.error cause, (whole.1, (whole.2.register call name).2))
      | _ => proceed (whole.1, (whole.2.register call name).2) := by
  have read : (Part.second.read : Action (σ × Interposer) Interposer) whole =
      (.ok whole.2, whole) := rfl
  have change : ∀ after : Interposer,
      (Part.second.change fun _ => after : Action (σ × Interposer) Unit) whole =
        (.ok (), (whole.1, after)) := fun _ => rfl
  unfold guarded
  rw [Action.bind_of_ok read]
  rcases whole.2.register call name with ⟨effect, after⟩
  dsimp only
  rw [Action.bind_of_ok (change after)]
  cases effect with
  | none => rfl
  | some effect => cases effect <;> rfl

end Interposer

def Scanner.disturbed {σ : Type} (scanner : Scanner σ) (options : InterposerOptions) :
    Scanner (σ × Interposer) :=
  ⟨Interposer.calm Part.second options (Part.first.manager scanner.manager), scanner.options,
    fun whole => scanner.isCancelled whole.1⟩

namespace ScanStore

variable {σ α : Type} {scanner : Scanner σ} {reference : StoreRef}

def disturbedView (store : ScanStore scanner reference) (options : InterposerOptions) :
    ScanView (scanner.disturbed options) where
  table whole := store.table whole.1
  ready whole := store.ready whole.1

theorem keeps_disturbed (store : ScanStore scanner reference) (options : InterposerOptions)
    {before after : σ} (keeps : store.Keeps before after) (first second : Interposer) :
    (store.disturbedView options).Keeps (before, first) (after, second) :=
  ⟨keeps.ready, keeps.table, keeps.cancelled⟩

theorem shows_disturbed (store : ScanStore scanner reference) (options : InterposerOptions)
    {action : Action σ α} {whole : σ × Interposer} {answer : α}
    (shows : store.Shows action whole.1 answer) :
    (store.disturbedView options).Shows (Part.first.run action) whole answer :=
  ⟨store.keeps_disturbed options shows.1 _ _, shows.2⟩

theorem shows_guarded (store : ScanStore scanner reference) (options : InterposerOptions)
    (call : CallKind) (name : Option String) {action : Action σ α} {whole : σ × Interposer}
    {answer : α} (shows : store.Shows action whole.1 answer) :
    (store.disturbedView options).Shows
      (Interposer.guarded Part.second call name none (Part.first.run action)) whole answer := by
  unfold ScanView.Shows
  rw [Interposer.guarded_apply]
  split
  · exact ⟨store.keeps_disturbed options (.refl _) _ _, fun _ found => nomatch found⟩
  · exact ⟨store.keeps_disturbed options shows.1 _ _, shows.2⟩

/-- A store whose reads fail as planned can be scanned. -/
def disturbed (store : ScanStore scanner reference) (options : InterposerOptions) :
    ScanStore (scanner.disturbed options) reference where
  toScanView := store.disturbedView options
  starts whole isReady := store.shows_guarded options _ _ (store.starts whole.1 isReady)
  pages whole range slice after size isReady :=
    store.shows_disturbed options (store.pages whole.1 range slice after size isReady)
  reads whole key slice isReady :=
    store.shows_guarded options _ _ (store.reads whole.1 key slice isReady)
  counts whole isReady := store.counts whole.1 isReady

end ScanStore

/-! ### A batch that is given up -/

/-- The scan of `fourRows` in one batch by one worker, whose second read of a slice fails. -/
def brokenScanner : Scanner ((Memory × ScriptNotes) × Interposer) :=
  (Script.scanner Memory.manager ⟨1, 10, 1⟩).disturbed ⟨none, none, false⟩

def secondReadFails : Interposer :=
  Interposer.empty.plan ⟨.getSlice, none, 1, 1, .failure (.temporary "read")⟩

def brokenStore : ScanStore brokenScanner ⟨"s", 0⟩ :=
  (Script.scanStore Memory.scanBackend ⟨1, 10, 1⟩ "s" ⟨"s", 0⟩).disturbed ⟨none, none, false⟩

def brokenPlan : ScanPlan ((Memory × ScriptNotes) × Interposer) Unit :=
  brokenScanner.plan (noting.job (Part.first.andThen Part.second)) ⟨"s", 0⟩ .full .empty .empty

def brokenRows : (Memory × ScriptNotes) × Interposer :=
  (brokenScanner.manager.openStore "s" ((fourRows, .empty), secondReadFails)).2

/-- What the scan reports is what a run reports in which the job has come back once. -/
theorem brokenRun :
    ∃ world : ScanWorld ((Memory × ScriptNotes) × Interposer) Unit,
      ScanWorld.Steps brokenPlan brokenStore.Keeps (.start brokenPlan brokenRows) world ∧
      world.Complete ∧ world.shared.returned < Word.count 64 ∧
      (world.report brokenPlan).keysScanned.toNat = 0 ∧
      (world.report brokenPlan).metrics.successes.toNat = 1 := by
  let scan := brokenScanner.scan (noting.job (Part.first.andThen Part.second)) id .full .empty
    .empty ((fourRows, .empty), secondReadFails)
  have work : ScanWork brokenStore.toScanView (noting.job (Part.first.andThen Part.second))
      notingScope .any := by
    apply Script.work noting rfl
    intro state noted cancelled
    apply ScanStore.keeps_disturbed
    exact Script.keeps_notes Memory.scanBackend ⟨1, 10, 1⟩ "s" ⟨"s", 0⟩ state.1 noted cancelled
  have isReady : brokenStore.ready brokenRows := ⟨rfl, rfl, trivial⟩
  have small : (brokenStore.table brokenRows).size < Word.count 64 := by decide +kernel
  have acquired : brokenScanner.manager.openStore "s" ((fourRows, .empty), secondReadFails) =
      (.ok ⟨"s", 0⟩, brokenRows) := rfl
  obtain ⟨world, steps, complete, ran⟩ := Scanner.scan_run brokenStore work (by decide) (by decide)
    rfl acquired isReady small id .full .empty .empty
  have reported : scan.1.toOption.map (fun report =>
      (report.keysScanned.toNat, report.metrics.successes.toNat)) = some (0, 1) := by
    decide +kernel
  rw [show scan = _ from ran] at reported
  obtain ⟨none, one⟩ := Prod.mk.inj (Option.some.inj reported)
  have tiles := brokenScanner.plan_tiles (noting.job (Part.first.andThen Part.second)) ⟨"s", 0⟩
    .full .empty .empty
  have countable : world.shared.returned < Word.count 64 := by
    calc world.shared.returned
        ≤ world.shared.calls.length := List.countP_le_length
      _ ≤ (notingScope.keys (brokenStore.table brokenRows) .full).length :=
        (steps.sound work tiles.apart isReady).ledger.length_calls_le tiles
      _ ≤ (brokenStore.table brokenRows).size := ScanScope.length_keys_le _ _ _
      _ < Word.count 64 := small
  exact ⟨world, steps, complete, countable, none, one⟩

theorem ScanWorld.keysScanned_exact_brokenScanner :
    ∃ world : ScanWorld ((Memory × ScriptNotes) × Interposer) Unit,
      Steps brokenPlan brokenStore.Keeps (start brokenPlan brokenRows) world ∧ world.Complete ∧
      world.shared.returned < Word.count 64 ∧
      (world.report brokenPlan).keysScanned.toNat < world.shared.returned ∧
      ∃ event ∈ world.shared.trace, event.unreported ≠ 0 := by
  obtain ⟨world, steps, complete, countable, none, one⟩ := brokenRun
  have tallied : (world.report brokenPlan).metrics.successes =
      UInt64.ofNat world.shared.successes :=
    (totals (Script.leavesTotals noting _) steps).1
  have short : (world.report brokenPlan).keysScanned.toNat < world.shared.returned := by
    rw [none]
    apply Nat.pos_of_ne_zero
    intro nobody
    have few : world.shared.successes ≤ 0 := nobody ▸ world.shared.successes_le_returned
    rw [tallied, Nat.le_zero.1 few] at one
    exact nomatch one
  refine ⟨world, steps, complete, countable, short, ?_⟩
  have exact := (keysScanned_exact brokenPlan brokenStore.Keeps steps complete countable).2
  apply Classical.byContradiction
  intro nothing
  apply Nat.ne_of_lt short
  apply exact.2
  intro event noted
  apply Classical.byContradiction
  intro lost
  exact nothing ⟨event, noted, lost⟩

/-- The job notes the first row and comes back; the slices of the next row cannot be read. -/
theorem Scanner.keysScanned_omits_batch :
    let scan := brokenScanner.scan (noting.job (Part.first.andThen Part.second)) id .full .empty
      .empty ((fourRows, .empty), secondReadFails)
    scan.1.toOption.map (fun report => (report.keysScanned, report.metrics.successes)) =
        some (0, 1) ∧
      scan.2.1.2.handled.length = 1 := by
  decide +kernel

end GraphStore
