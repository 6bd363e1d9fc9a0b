import GraphStore.Proofs.Scan.Sequential

/-!
Contract: what it means that a scan is completed.

Owns the end of a scan: its workers stop because nothing is left to be taken, or because of a
failure, or because the scan is cancelled (`ScanWorld.stops`). A scan that has ended without any
failure has called its job once for every key that it is about (`ScanWorld.CoversOnce`), and the
report says so; one in which something has failed, or that was cancelled, is reported as failed.
-/

namespace GraphStore

namespace ScanScope

def Includes (scope : ScanScope) (table : Table) (range : KeyRange) (key : Bytes) : Prop :=
  range.contains key = true ∧ Table.slice table key scope.driver ≠ [] ∧ scope.filter key = true

instance (scope : ScanScope) (table : Table) (range : KeyRange) (key : Bytes) :
    Decidable (scope.Includes table range key) :=
  inferInstanceAs (Decidable (_ ∧ _ ∧ _))

end ScanScope

/-! ### Scans without failures -/

def ScanShared.Flawless {σ : Type} (shared : ScanShared σ) : Prop :=
  ∀ event ∈ shared.trace, event.isFailure = false

/-- Whether a worker stops, because its job has crashed or a chore has failed. -/
def ScanEvent.stops : ScanEvent → Bool
  | called call => call.ending = .crashed
  | failed _ => true

theorem ScanEvent.isFailure_of_stops {event : ScanEvent} (stops : event.stops = true) :
    event.isFailure = true := by
  cases event with
  | called call =>
      have crashed : call.ending = .crashed := of_decide_eq_true stops
      simp [isFailure, crashed]
  | failed chore => rfl

theorem ScanEvent.stops_of_aborts {event : ScanEvent} {part : Nat}
    (aborts : event.aborts part = true) : event.stops = true := by
  cases event with
  | called call =>
      simp only [ScanEvent.aborts, Bool.and_eq_true] at aborts
      exact aborts.2
  | failed chore => rfl

/-- No worker has stopped early; calls may have failed. -/
def ScanShared.Unbroken {σ : Type} (shared : ScanShared σ) : Prop :=
  ∀ event ∈ shared.trace, event.stops = false

namespace ScanShared.Flawless

variable {σ : Type} {shared : ScanShared σ}

theorem unbroken (flawless : shared.Flawless) : shared.Unbroken := by
  intro event member
  apply Bool.eq_false_iff.2
  intro stops
  have failed := ScanEvent.isFailure_of_stops stops
  rw [flawless event member] at failed
  exact Bool.noConfusion failed

theorem failures (flawless : shared.Flawless) : shared.failures = 0 := by
  apply List.countP_eq_zero.2
  intro event member
  rw [flawless event member]
  exact Bool.false_ne_true

theorem done (flawless : shared.Flawless) {call : ScanCall} (member : call ∈ shared.calls) :
    call.ending = .done := by
  obtain ⟨event, noted, isCall⟩ := List.mem_filterMap.1 member
  have fine := flawless event noted
  cases event with
  | called other =>
      obtain rfl := Option.some.inj isCall
      simpa [ScanEvent.isFailure] using fine
  | failed chore => cases isCall

theorem successes (flawless : shared.Flawless) : shared.successes = shared.calls.length := by
  apply List.countP_eq_length.2
  intro call member
  simpa using flawless.done member

theorem returned (flawless : shared.Flawless) : shared.returned = shared.calls.length := by
  apply List.countP_eq_length.2
  intro call member
  simp [ScanCall.returned, flawless.done member]

theorem unreported (flawless : shared.Flawless) : shared.unreported = 0 := by
  apply List.sum_eq_zero_iff_forall_eq_nat.2
  intro keys member
  obtain ⟨event, noted, same⟩ := List.mem_map.1 member
  rw [← same]
  have fine := flawless event noted
  cases event with
  | called call =>
      have ended : call.ending = .done := by simpa [ScanEvent.isFailure] using fine
      simp [ScanEvent.unreported, ended]
  | failed chore => exact Bool.noConfusion fine

end ScanShared.Flawless

namespace ScanWorld

variable {σ ω : Type} {plan : ScanPlan σ ω} {store : ScanStore plan.scanner plan.store}
  {scope : ScanScope} {changes : RowChanges} {table : Table}
  {world middle after : ScanWorld σ ω}

/-! ### Why workers stop -/

/-- No worker has to take any more partitions. -/
def Stops (plan : ScanPlan σ ω) (shared : ScanShared σ) : Prop :=
  plan.scanner.isCancelled shared.world = true ∨
    (∃ event ∈ shared.trace, event.stops = true) ∨ plan.ranges.length ≤ shared.taken

/-- What is kept of a scan while it goes on. -/
structure Grows (plan : ScanPlan σ ω) (before after : ScanShared σ) : Prop where
  trace : ∀ event ∈ before.trace, event ∈ after.trace
  cancelled : plan.scanner.isCancelled before.world = true →
    plan.scanner.isCancelled after.world = true
  taken : before.taken ≤ after.taken

/-- A reason to stop lasts. -/
theorem Grows.stops {before after : ScanShared σ} (grows : Grows plan before after)
    (stops : Stops plan before) : Stops plan after := by
  rcases stops with cancelled | ⟨event, member, failed⟩ | through
  · exact .inl (grows.cancelled cancelled)
  · exact .inr (.inl ⟨event, grows.trace event member, failed⟩)
  · exact .inr (.inr (Nat.le_trans through grows.taken))

theorem Step.grows (work : ScanWork store.toScanView plan.job scope changes)
    (apart : plan.Apart) (sound : Sound plan store.toScanView scope changes table world)
    (step : Step plan store.Keeps world after) : Grows plan world.shared after.shared := by
  cases step with
  | interference allowed => exact ⟨fun _ member => member, allowed.cancelled, Nat.le_refl _⟩
  | @worker index phase next shared present step =>
      have advances := step.advances work apart sound.ledger (sound.phases index phase present)
        fun part isPart => sound.taken index phase part present isPart
      exact ⟨advances.trace, advances.cancelled, advances.taken⟩

/-- Nothing of what a scan is judged by is taken back in a run. -/
theorem Steps.grows (work : ScanWork store.toScanView plan.job scope changes)
    (apart : plan.Apart) (sound : Sound plan store.toScanView scope changes table world)
    (steps : Steps plan store.Keeps world after) : Grows plan world.shared after.shared := by
  induction steps with
  | refl => exact ⟨fun _ member => member, id, Nat.le_refl _⟩
  | tail steps step before =>
      have last := step.grows work apart (sound.steps work apart steps)
      exact ⟨fun event member => last.trace event (before.trace event member),
        fun cancelled => last.cancelled (before.cancelled cancelled),
        Nat.le_trans before.taken last.taken⟩

end ScanWorld

/-- A worker retires because the scan is cancelled, or a failure has just been noted, or nothing is
left to be taken. -/
theorem ScanPlan.WorkerStep.retires {σ ω : Type} {plan : ScanPlan σ ω}
    {phase after : WorkerPhase ω} {shared sharedAfter : ScanShared σ}
    (step : plan.WorkerStep phase shared after sharedAfter) (retired : after.isRetired = true) :
    phase.isRetired = true ∨ ScanWorld.Stops plan sharedAfter := by
  have failed : ∀ (before : ScanShared σ) chore, ScanWorld.Stops plan (before.fail chore) := by
    intro before chore
    exact .inr (.inl ⟨_, List.mem_append_right _ (List.mem_singleton_self _), rfl⟩)
  cases step with
  | uncreated ran => exact .inr (failed _ _)
  | unstarted ran => exact .inr (failed _ _)
  | unequipped queries => exact .inr (failed _ _)
  | halted enough =>
      rcases enough with cancelled | through
      · exact .inr (.inl cancelled)
      · exact .inr (.inr (.inr through))
  | unopened ran => exact .inr (failed _ _)
  | stuck next => exact .inr (failed _ _)
  | broke running => exact .inr (failed _ _)
  | unread ran => exact .inr (failed _ _)
  | crashed ran =>
      exact .inr (.inr (.inl ⟨_, List.mem_append_right _ (List.mem_singleton_self _), rfl⟩))
  | finished ran => exact .inl rfl
  | unfinished ran => exact .inl rfl
  | _ => exact Bool.noConfusion retired

namespace ScanWorld

variable {σ ω : Type} {plan : ScanPlan σ ω} {store : ScanStore plan.scanner plan.store}
  {scope : ScanScope} {changes : RowChanges} {world middle : ScanWorld σ ω} {initial : σ}

/-- A worker that has retired was right to stop. -/
theorem stops (work : ScanWork store.toScanView plan.job scope changes) (apart : plan.Apart)
    (isReady : store.ready initial) (steps : Steps plan store.Keeps (start plan initial) world) :
    ∀ phase ∈ world.workers, phase.isRetired = true → Stops plan world.shared := by
  have sound : Sound plan store.toScanView scope changes (store.table initial)
      (start plan initial) := sound_start isReady
  induction steps with
  | refl =>
      intro phase member retired
      rw [List.eq_of_mem_replicate member] at retired
      exact Bool.noConfusion retired
  | tail steps step before =>
      have grows := step.grows work apart (sound.steps work apart steps)
      cases step with
      | interference allowed =>
          intro phase member retired
          exact grows.stops (before phase member retired)
      | @worker index phase next shared present step =>
          intro other member retired
          obtain ⟨place, found⟩ := List.getElem?_of_mem member
          rcases getElem?_set_cases found with ⟨-, same⟩ | ⟨-, earlier⟩
          · rw [same] at retired
            rcases step.retires retired with already | stops
            · exact grows.stops (before phase (List.mem_of_getElem? present) already)
            · exact stops
          · exact grows.stops (before other (List.mem_of_getElem? earlier) retired)

/-! ### Complete scans -/

/-- The job has been called once for every key of the range that the scan is about, in ascending
order within each partition and with the slices of its row, and the report says so. -/
structure CoversOnce (plan : ScanPlan σ ω) (scope : ScanScope) (table : Table) (range : KeyRange)
    (world : ScanWorld σ ω) : Prop where
  once : ∀ key, (world.shared.calls.map ScanCall.key).count key =
    if scope.Includes table range key then 1 else 0
  order : ∀ part, (ScanCall.keysOf world.shared.calls part).Pairwise (· < ·)
  slices : ∀ call ∈ world.shared.calls,
    RowSlices.Show table call.key (scope.driver :: scope.others) call.slices
  done : ∀ call ∈ world.shared.calls, call.ending = .done
  completed : (world.report plan).state = .completed
  successes : (world.report plan).metrics.successes.toNat = (scope.keys table range).length
  keysScanned : (world.report plan).keysScanned.toNat = (scope.keys table range).length

variable {range : KeyRange} {table : Table} {view : ScanView plan.scanner}

theorem Ledger.includes {shared : ScanShared σ}
    (ledger : Ledger plan view scope changes table shared) (tiles : range.Tiles plan.ranges)
    {call : ScanCall} (member : call ∈ shared.calls) : scope.Includes table range call.key := by
  obtain ⟨part, isPart, inPart⟩ := ScanPlan.mem_keysOf.1 (ledger.mem_of_call member)
  obtain ⟨inside, included⟩ := ScanScope.mem_keys.1 inPart
  exact ⟨tiles.inside part (List.mem_of_getElem? isPart) _ inside, included⟩

theorem Ledger.length_calls_le {shared : ScanShared σ}
    (ledger : Ledger plan view scope changes table shared) (tiles : range.Tiles plan.ranges) :
    shared.calls.length ≤ (scope.keys table range).length := by
  have inScope : shared.calls.map ScanCall.key ⊆ scope.keys table range := by
    intro key member
    obtain ⟨call, listed, same⟩ := List.mem_map.1 member
    exact ScanScope.mem_keys.2 (same ▸ ledger.includes tiles listed)
  have bound := ledger.once.length_le_of_subset inScope
  rwa [List.length_map] at bound

/-- When no worker has stopped early and the scan is not cancelled, every key has had its call. -/
theorem Sound.called (sound : Sound plan view scope changes table world)
    (complete : world.Complete) (through : plan.ranges.length ≤ world.shared.taken)
    (tiles : range.Tiles plan.ranges)
    (unbroken : world.shared.Unbroken)
    (running : plan.scanner.isCancelled world.shared.world = false) {key : Bytes}
    (included : scope.Includes table range key) :
    ∃ call ∈ world.shared.calls, call.key = key := by
  obtain ⟨part, member, inPart⟩ := tiles.covers key included.1
  obtain ⟨number, present⟩ := List.getElem?_of_mem member
  have begun : number < world.shared.taken :=
    Nat.lt_of_lt_of_le (List.getElem?_eq_some_iff.1 present).1 through
  have inKeys : key ∈ plan.keysOf scope table number :=
    ScanPlan.mem_keysOf.2 ⟨part, present, ScanScope.mem_keys.2 ⟨inPart, included.2⟩⟩
  rcases sound.settled number begun with ⟨index, phase, found, atPart⟩ | finished | cancelled |
    ⟨event, noted, aborts⟩
  · rw [complete phase (List.mem_of_getElem? found)] at atPart
    exact nomatch atPart
  · rw [finished] at inKeys
    obtain ⟨call, listed, -, same⟩ := ScanCall.of_mem_keysOf inKeys
    exact ⟨call, listed, same⟩
  · rw [running] at cancelled
    exact Bool.noConfusion cancelled
  · have stops := ScanEvent.stops_of_aborts aborts
    rw [unbroken event noted] at stops
    exact Bool.noConfusion stops

theorem Steps.length_workers {interferes : σ → σ → Prop} {after : ScanWorld σ ω}
    (steps : Steps plan interferes world after) :
    after.workers.length = world.workers.length := by
  induction steps with
  | refl => rfl
  | tail _ step before =>
      cases step with
      | interference allowed => exact before
      | worker present step => simpa using before

theorem stops_of_complete (work : ScanWork store.toScanView plan.job scope changes)
    (apart : plan.Apart) (manned : 0 < plan.scanner.options.workers)
    (isReady : store.ready initial) (steps : Steps plan store.Keeps (start plan initial) world)
    (complete : world.Complete) : Stops plan world.shared := by
  have count : world.workers.length = plan.scanner.options.workers := by
    rw [steps.length_workers]
    exact List.length_replicate
  have present : world.workers ≠ [] := by
    intro nobody
    rw [nobody] at count
    exact Nat.ne_of_lt manned count
  obtain ⟨phase, rest, same⟩ := List.exists_cons_of_ne_nil present
  have member : phase ∈ world.workers := by simp [same]
  apply stops work apart isReady steps phase member
  rw [complete phase member]
  rfl

theorem nodup_keys (scope : ScanScope) (table : Table) (range : KeyRange) :
    (scope.keys table range).Nodup := by
  have ascending : (scope.keys table range).Pairwise (· < ·) := ScanScope.ascending_keysBehind
  apply ascending.imp
  intro left right less same
  rw [same] at less
  exact Std.lt_irrefl less

/-- The calls of a complete scan in which no worker has stopped early are those for the keys of its
range, in some order. -/
theorem Sound.perm_keys (sound : Sound plan view scope changes table world)
    (complete : world.Complete) (through : plan.ranges.length ≤ world.shared.taken)
    (tiles : range.Tiles plan.ranges) (unbroken : world.shared.Unbroken)
    (running : plan.scanner.isCancelled world.shared.world = false) :
    (world.shared.calls.map ScanCall.key).Perm (scope.keys table range) := by
  apply (List.perm_ext_iff_of_nodup sound.ledger.once (nodup_keys scope table range)).2
  intro key
  rw [ScanScope.mem_keys]
  constructor
  · intro member
    obtain ⟨call, listed, same⟩ := List.mem_map.1 member
    exact same ▸ sound.ledger.includes tiles listed
  · intro included
    obtain ⟨call, listed, same⟩ :=
      sound.called complete through tiles unbroken running included
    exact same ▸ List.mem_map_of_mem listed

/-- All partitions of a complete scan have been taken if no worker has stopped early and the scan is
not cancelled. -/
theorem through_of_unbroken (work : ScanWork store.toScanView plan.job scope changes)
    (apart : plan.Apart) (manned : 0 < plan.scanner.options.workers)
    (isReady : store.ready initial) (steps : Steps plan store.Keeps (start plan initial) world)
    (complete : world.Complete) (unbroken : world.shared.Unbroken)
    (running : plan.scanner.isCancelled world.shared.world = false) :
    plan.ranges.length ≤ world.shared.taken := by
  rcases stops_of_complete work apart manned isReady steps complete with
    cancelled | ⟨event, noted, stops⟩ | through
  · rw [running] at cancelled
    exact Bool.noConfusion cancelled
  · rw [unbroken event noted] at stops
    exact Bool.noConfusion stops
  · exact through

/-- A complete scan that is not cancelled, and no operation of which failed, has covered its range
once. -/
theorem coversOnce (plan : ScanPlan σ ω) {store : ScanStore plan.scanner plan.store}
    {world : ScanWorld σ ω}
    (work : ScanWork store.toScanView plan.job scope changes)
    (leaves : plan.job.LeavesTotals) (manned : 0 < plan.scanner.options.workers)
    (tiles : range.Tiles plan.ranges) (isReady : store.ready initial)
    (small : (store.table initial).size < Word.count 64)
    (steps : Steps plan store.Keeps (start plan initial) world) (complete : world.Complete)
    (flawless : world.shared.Flawless)
    (running : plan.scanner.isCancelled world.shared.world = false) :
    CoversOnce plan scope (store.table initial) range world := by
  have sound := steps.sound work tiles.apart isReady
  have through := through_of_unbroken work tiles.apart manned isReady steps complete
    flawless.unbroken running
  have perm := sound.perm_keys complete through tiles flawless.unbroken running
  have length : world.shared.calls.length = (scope.keys (store.table initial) range).length := by
    rw [← perm.length_eq, List.length_map]
  have counted : (scope.keys (store.table initial) range).length < Word.count 64 :=
    Nat.lt_of_le_of_lt (scope.length_keys_le _ _) small
  refine ⟨?_, ?_, fun call member => (sound.ledger.calls call member).slices,
    fun call member => flawless.done member, ?_, ?_, ?_⟩
  · intro key
    rw [perm.count_eq, (nodup_keys scope _ range).count]
    simp only [ScanScope.mem_keys]
    rfl
  · intro part
    exact ScanPlan.ascending_keysOf.sublist (sound.ledger.fronts part).sublist
  · apply (report_completed_iff leaves steps ?_).2 ⟨flawless, running⟩
    rw [flawless.failures]
    exact Nat.zero_lt_of_lt counted
  · show world.shared.metrics.successes.toNat = _
    rw [(totals leaves steps).1, flawless.successes, length, UInt64.toNat_ofNat_of_lt' counted]
  · have balance := reported_of_complete steps complete
    rw [flawless.unreported, flawless.returned, Nat.add_zero, length] at balance
    show (UInt64.ofNat world.shared.reported).toNat = _
    rw [balance, UInt64.toNat_ofNat_of_lt' counted]

/-- The failures of a scan fit into their counter. -/
theorem failures_countable (plan : ScanPlan σ ω) {store : ScanStore plan.scanner plan.store}
    {world : ScanWorld σ ω}
    (work : ScanWork store.toScanView plan.job scope changes)
    (tiles : range.Tiles plan.ranges) (isReady : store.ready initial)
    (small : (store.table initial).size + 2 * plan.scanner.options.workers < Word.count 64)
    (steps : Steps plan store.Keeps (start plan initial) world) :
    world.shared.failures < Word.count 64 := by
  have sound := steps.sound work tiles.apart isReady
  have failed := failures_le steps
  have calls := sound.ledger.length_calls_le tiles
  have keys := scope.length_keys_le (store.table initial) range
  omega

/-- A partition that has been begun and that nobody has given up has all its calls once its worker
has left it, whatever has failed elsewhere or on its other keys. -/
theorem Sound.called_of_begun (sound : Sound plan view scope changes table world)
    {part : Nat} {whole : KeyRange} (isPart : plan.ranges[part]? = some whole)
    (begun : part < world.shared.taken)
    (left : ∀ phase ∈ world.workers, phase.part? ≠ some part)
    (kept : ∀ event ∈ world.shared.trace, event.aborts part = false)
    (running : plan.scanner.isCancelled world.shared.world = false) :
    ScanCall.keysOf world.shared.calls part = scope.keys table whole := by
  rcases sound.settled part begun with ⟨index, phase, found, atPart⟩ | finished | cancelled |
    ⟨event, noted, aborts⟩
  · exact absurd atPart (left phase (List.mem_of_getElem? found))
  · rw [← finished, ScanPlan.keysOf, isPart]
  · rw [running] at cancelled
    exact Bool.noConfusion cancelled
  · rw [kept event noted] at aborts
    exact Bool.noConfusion aborts

end ScanWorld

end GraphStore
