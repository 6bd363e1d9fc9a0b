import GraphStore.Proofs.Scan.Coverage

/-!
Contract: every step of a scan keeps its invariant.

Owns what a step of a worker must come to (`ScanPlan.Advances`), that each of the steps comes to
this, and the invariant of whole scans (`ScanWorld.Sound.steps`). A step touches the calls of no
partition but its own worker's, so the others are carried along by one argument.
-/

namespace GraphStore

def WorkerPhase.isRetired {ω : Type} : WorkerPhase ω → Bool
  | finishing _ => true
  | gone => true
  | _ => false

namespace ScanPlan

variable {σ ω : Type}

/-- What a step of a worker leaves behind, as far as the other workers are concerned. -/
structure Advances (plan : ScanPlan σ ω) (view : ScanView plan.scanner) (scope : ScanScope)
    (changes : RowChanges) (table : Table) (phase : WorkerPhase ω) (shared : ScanShared σ)
    (after : WorkerPhase ω) (sharedAfter : ScanShared σ) : Prop where
  ledger : ScanWorld.Ledger plan view scope changes table sharedAfter
  good : plan.GoodPhase view scope table sharedAfter.calls after
  others : ∀ part, phase.part? ≠ some part →
    ScanCall.keysOf sharedAfter.calls part = ScanCall.keysOf shared.calls part
  trace : ∀ event ∈ shared.trace, event ∈ sharedAfter.trace
  cancelled : plan.scanner.isCancelled shared.world = true →
    plan.scanner.isCancelled sharedAfter.world = true
  taken : shared.taken ≤ sharedAfter.taken
  place : ∀ part, after.part? = some part →
    phase.part? = some part ∨ part = shared.taken ∧ shared.taken < sharedAfter.taken
  left : ∀ part < sharedAfter.taken, part < shared.taken ∧ phase.part? ≠ some part ∨
    after.part? = some part ∨ ScanWorld.Settled plan scope table sharedAfter part

variable {plan : ScanPlan σ ω} {view : ScanView plan.scanner} {scope : ScanScope}
  {changes : RowChanges} {table : Table} {phase after : WorkerPhase ω}
  {shared sharedAfter : ScanShared σ}

/-- A step that notes nothing and takes no partition; its worker stays where it is, or the partition
that it leaves is settled. -/
theorem Advances.of_quiet (ledger : ScanWorld.Ledger plan view scope changes table shared)
    (keeps : view.Keeps shared.world sharedAfter.world)
    (trace : sharedAfter.trace = shared.trace) (taken : sharedAfter.taken = shared.taken)
    (good : plan.GoodPhase view scope table shared.calls after)
    (place : ∀ part, after.part? = some part → phase.part? = some part)
    (left : ∀ part, phase.part? = some part →
      after.part? = some part ∨ ScanWorld.Settled plan scope table sharedAfter part) :
    plan.Advances view scope changes table phase shared after sharedAfter := by
  have calls : sharedAfter.calls = shared.calls := congrArg (List.filterMap ScanEvent.call?) trace
  constructor
  · exact ledger.keeps keeps calls (Nat.le_of_eq taken.symm)
  · rwa [calls]
  · intro part _
    rw [calls]
  · intro event member
    rwa [trace]
  · exact keeps.cancelled
  · exact Nat.le_of_eq taken.symm
  · intro part isPart
    exact .inl (place part isPart)
  · intro part begun
    by_cases own : phase.part? = some part
    · exact .inr (left part own)
    · exact .inl ⟨taken ▸ begun, own⟩

/-- A chore that has failed: its worker is through, and says so if it leaves a partition. -/
theorem Advances.of_failed {chore : ScanChore}
    (ledger : ScanWorld.Ledger plan view scope changes table shared)
    (keeps : view.Keeps shared.world sharedAfter.world)
    (trace : sharedAfter.trace = shared.trace) (taken : sharedAfter.taken = shared.taken)
    (through : after.isRetired = true)
    (gives : ∀ part, phase.part? = some part → chore.part? = some part) :
    plan.Advances view scope changes table phase shared after (sharedAfter.fail chore) := by
  have calls : (sharedAfter.fail chore).calls = shared.calls := by
    rw [ScanShared.calls_fail]
    exact congrArg (List.filterMap ScanEvent.call?) trace
  have nowhere : after.part? = none := by
    cases after with
    | finishing worker => rfl
    | gone => rfl
    | _ => exact Bool.noConfusion through
  constructor
  · exact ledger.keeps keeps calls (Nat.le_of_eq taken.symm)
  · cases after with
    | finishing worker => trivial
    | gone => trivial
    | _ => exact Bool.noConfusion through
  · intro part _
    rw [calls]
  · intro event member
    apply List.mem_append_left
    rwa [trace]
  · exact keeps.cancelled
  · exact Nat.le_of_eq taken.symm
  · intro part isPart
    rw [nowhere] at isPart
    exact nomatch isPart
  · intro part begun
    by_cases own : phase.part? = some part
    · refine .inr (.inr (.inr (.inr ⟨.failed chore, ?_, ?_⟩)))
      · exact List.mem_append_right _ (List.mem_singleton_self _)
      · simp [ScanEvent.aborts, gives part own]
    · exact .inl ⟨taken ▸ begun, own⟩

end ScanPlan

/-! ### The other workers -/

namespace ScanWorld

variable {σ ω : Type} {plan : ScanPlan σ ω} {view : ScanView plan.scanner} {scope : ScanScope}
  {changes : RowChanges} {table : Table} {world : ScanWorld σ ω}

theorem getElem?_set_cases {α : Type} {members : List α} {index other : Nat} {added found : α}
    (present : (members.set index added)[other]? = some found) :
    other = index ∧ found = added ∨ other ≠ index ∧ members[other]? = some found := by
  by_cases same : other = index
  · subst same
    have inside : other < (members.set other added).length :=
      (List.getElem?_eq_some_iff.1 present).1
    rw [List.length_set] at inside
    rw [List.getElem?_set_self inside, Option.some.injEq] at present
    exact .inl ⟨rfl, present.symm⟩
  · rw [List.getElem?_set_ne (Ne.symm same)] at present
    exact .inr ⟨same, present⟩

theorem Settled.advance {shared sharedAfter : ScanShared σ} {phase after : WorkerPhase ω}
    {part : Nat} (settled : Settled plan scope table shared part)
    (advances : plan.Advances view scope changes table phase shared after sharedAfter)
    (other : phase.part? ≠ some part) : Settled plan scope table sharedAfter part := by
  rcases settled with finished | cancelled | ⟨event, member, aborts⟩
  · exact .inl (finished.trans (advances.others part other).symm)
  · exact .inr (.inl (advances.cancelled cancelled))
  · exact .inr (.inr ⟨event, advances.trace event member, aborts⟩)

theorem Sound.advance (sound : Sound plan view scope changes table world) {index : Nat}
    {phase after : WorkerPhase ω} {shared : ScanShared σ}
    (present : world.workers[index]? = some phase)
    (advances : plan.Advances view scope changes table phase world.shared after shared) :
    Sound plan view scope changes table ⟨shared, world.workers.set index after⟩ := by
  have inside : index < world.workers.length := (List.getElem?_eq_some_iff.1 present).1
  have moved : (world.workers.set index after)[index]? = some after := by simp [inside]
  refine ⟨advances.ledger, ?_, ?_, ?_, ?_⟩
  · intro other found isFound
    rcases getElem?_set_cases isFound with ⟨-, isAfter⟩ | ⟨different, isOther⟩
    · rw [isAfter]
      exact advances.good
    · apply (sound.phases other found isOther).congr
      intro part isPart
      apply advances.others
      intro own
      exact different (sound.apart other index found phase part isOther present isPart own)
  · intro other found part isFound isPart
    rcases getElem?_set_cases isFound with ⟨-, isAfter⟩ | ⟨different, isOther⟩
    · rw [isAfter] at isPart
      rcases advances.place part isPart with own | ⟨same, more⟩
      · exact Nat.lt_of_lt_of_le (sound.taken index phase part present own) advances.taken
      · exact same ▸ more
    · exact Nat.lt_of_lt_of_le (sound.taken other found part isOther isPart) advances.taken
  · -- A partition that the worker has just taken is not one of the others' yet.
    have apart : ∀ (other : Nat) found part, other ≠ index → world.workers[other]? = some found →
        found.part? = some part → after.part? = some part → False := by
      intro other found part different isOther isPart atAfter
      rcases advances.place part atAfter with own | ⟨same, -⟩
      · exact different (sound.apart other index found phase part isOther present isPart own)
      · have begun := sound.taken other found part isOther isPart
        omega
    intro left right leftPhase rightPhase part isLeft isRight atLeft atRight
    rcases getElem?_set_cases isLeft with ⟨leftIs, leftAfter⟩ | ⟨leftNot, isLeft⟩ <;>
      rcases getElem?_set_cases isRight with ⟨rightIs, rightAfter⟩ | ⟨rightNot, isRight⟩
    · rw [leftIs, rightIs]
    · rw [leftAfter] at atLeft
      exact (apart right rightPhase part rightNot isRight atRight atLeft).elim
    · rw [rightAfter] at atRight
      exact (apart left leftPhase part leftNot isLeft atLeft atRight).elim
    · exact sound.apart left right leftPhase rightPhase part isLeft isRight atLeft atRight
  · intro part begun
    rcases advances.left part begun with ⟨before, other⟩ | atAfter | settled
    · rcases sound.settled part before with ⟨holder, found, isHolder, isPart⟩ | settled
      · have different : index ≠ holder := by
          intro same
          rw [← same, present] at isHolder
          rw [← Option.some.inj isHolder] at isPart
          exact other isPart
        exact .inl ⟨holder, found, by rw [List.getElem?_set_ne different]; exact isHolder, isPart⟩
      · exact .inr (settled.advance advances other)
    · exact .inl ⟨index, after, moved, atAfter⟩
    · exact .inr settled

/-- What others do to the stores keeps the scan sound, if they keep the table. -/
theorem Sound.interference (sound : Sound plan view scope changes table world) {after : σ}
    (keeps : view.Keeps world.shared.world after) :
    Sound plan view scope changes table ⟨world.shared.withWorld after, world.workers⟩ where
  ledger := sound.ledger.keeps keeps rfl (Nat.le_refl _)
  phases := sound.phases
  taken := sound.taken
  apart := sound.apart
  settled part begun := by
    rcases sound.settled part begun with held | finished | cancelled | aborted
    · exact .inl held
    · exact .inr (.inl finished)
    · exact .inr (.inr (.inl (keeps.cancelled cancelled)))
    · exact .inr (.inr (.inr aborted))

end ScanWorld

/-! ### The steps -/

namespace Scanner

variable {σ ω : Type} {scanner : Scanner σ} {reference : StoreRef}

/-- A batch opens at the front of its range, or not at all. -/
theorem openBatch_result (store : ScanStore scanner reference) (setup : WorkerSetup ω)
    (range : KeyRange) {state : σ} (isReady : store.ready state) {outcome : Result Manager.Scan}
    {after : σ} (ran : scanner.openBatch reference setup range state = (outcome, after)) :
    store.Keeps state after ∧ ∀ walk, outcome = .ok walk →
      0 < scanner.options.keysPerBatch ∧
        walk = ⟨reference, range, setup.driver,
          Pager.new ⟨setup.filter, scanner.options.keysPerBatch, 0⟩ Manager.scanPageRows⟩ := by
  unfold openBatch at ran
  by_cases none : scanner.options.keysPerBatch = 0
  · have refused : (Action.ofResult (Selector.new setup.filter scanner.options.keysPerBatch) :
        Action σ Selector) state = (.error (.invalidArgument .zeroSelectorLimit), state) := by
      simp [Selector.new, none]
    rw [Action.bind_of_error refused] at ran
    obtain ⟨rfl, rfl⟩ := Prod.mk.inj ran
    exact ⟨.refl state, fun walk isWalk => nomatch isWalk⟩
  · have selected : (Action.ofResult (Selector.new setup.filter scanner.options.keysPerBatch) :
        Action σ Selector) state =
          (.ok ⟨setup.filter, scanner.options.keysPerBatch, 0⟩, state) := by
      simp [Selector.new, none]
    rw [Action.bind_of_ok selected, Manager.getKeys, Action.bind_pure_apply] at ran
    obtain ⟨rfl, rfl⟩ := Prod.mk.inj ran
    refine ⟨(store.starts state isReady).1, ?_⟩
    intro walk isWalk
    refine ⟨Nat.pos_of_ne_zero none, ?_⟩
    cases started : (scanner.manager.startScan reference state).1 with
    | error failure =>
        rw [started] at isWalk
        exact nomatch isWalk
    | ok answer =>
        rw [started] at isWalk
        exact (Except.ok.inj isWalk).symm

end Scanner

namespace ScanPlan

open ScanWorld

variable {σ ω : Type} {plan : ScanPlan σ ω} {store : ScanStore plan.scanner plan.store}
  {scope : ScanScope} {changes : RowChanges} {table : Table} {phase after : WorkerPhase ω}
  {shared sharedAfter : ScanShared σ}

theorem keys_of_rejected {rows : List KeyedRow}
    (rejected : ∀ row ∈ rows, scope.filter row.key = false) :
    (rows.map KeyedRow.key).filter scope.filter = [] := by
  apply List.filter_eq_nil_iff.2
  intro key member
  obtain ⟨row, listed, same⟩ := List.mem_map.1 member
  rw [← same, rejected row listed]
  exact Bool.false_ne_true

/-- The first row that a walk draws is the first key that is left. -/
theorem keysBehind_of_drawn {range : KeyRange} {place : Option Bytes}
    {skipped back : List KeyedRow} {row : KeyedRow}
    (split : table.rowsBehind range scope.driver place = skipped ++ row :: back)
    (rejected : ∀ other ∈ skipped, scope.filter other.key = false)
    (accepted : scope.filter row.key = true) :
    scope.keysBehind table range place =
      row.key :: scope.keysBehind table range (some row.key) := by
  unfold ScanScope.keysBehind
  rw [Table.rowsBehind_of_split split, split, List.map_append, List.filter_append,
    keys_of_rejected rejected, List.nil_append, List.map_cons, List.filter_cons, if_pos accepted]

/-- A row that is drawn is the first of those that are left. -/
theorem GoodPhase.draw (ledger : Ledger plan store.toScanView scope changes table shared)
    (apart : plan.Apart) {setup : WorkerSetup ω} {batch : ScanBatch}
    (good : plan.GoodPhase store.toScanView scope table shared.calls (.walking setup batch))
    {row : Option (Result KeyedRow)} {walk : Manager.Scan} {after : σ}
    (ran : batch.walk.next plan.scanner.manager shared.world = (row, walk, after)) :
    store.Keeps shared.world after ∧
      plan.GoodPhase store.toScanView scope table shared.calls
        (.drawn setup { batch with walk := walk } row) := by
  obtain ⟨equipped, counted, standing, due⟩ := good
  have agrees : ∀ key, Table.inPage batch.walk.range batch.last key = true →
      Table.row (store.table shared.world) key = Table.row table key := fun key inside =>
    ledger.untouched key (ledger.uncalled_behind apart due inside)
  have reached := standing.reached
  rw [← standing.slice] at reached
  obtain ⟨found, pager, left, requested, keeps, drawn⟩ :=
    Manager.Scan.next_result store standing.store reached ledger.ready agrees
  rw [ran] at requested
  obtain ⟨rfl, rest⟩ := Prod.mk.inj requested
  obtain ⟨rfl, rfl⟩ := Prod.mk.inj rest
  refine ⟨keeps, ?_⟩
  rw [standing.slice, standing.selector] at drawn
  cases drawn with
  | @row skipped back row pager split rejected accepted isOpen selector behind =>
      have member : row ∈ table.rowsBehind batch.walk.range scope.driver batch.last := by
        rw [split]
        simp
      have shown := Table.mem_rowsBehind.1 member
      have next := keysBehind_of_drawn split rejected accepted
      refine ⟨equipped, ⟨counted.positive, counted.last⟩, ⟨?_, ?_, ?_, ?_⟩⟩
      · refine ⟨standing.store, standing.slice, standing.within, selector, ?_, behind⟩
        have more : batch.keys < plan.scanner.options.keysPerBatch := by
          simpa [Selector.reachedLimit] using isOpen
        exact more
      · exact Table.contains_of_inPage shown.1
      · exact shown.2.1
      · show plan.Due scope table shared.calls batch.part _
        rw [← next]
        exact due
  | full limit =>
      have full : batch.keys = plan.scanner.options.keysPerBatch := by
        have reachedLimit : plan.scanner.options.keysPerBatch ≤ batch.keys := by
          simpa [Selector.reachedLimit] using limit
        exact Nat.le_antisymm standing.fits reachedLimit
      refine ⟨equipped, ⟨counted.positive, counted.last⟩, standing.within, ?_⟩
      rw [if_pos full]
      exact due
  | through isOpen rejected =>
      have partial' : batch.keys ≠ plan.scanner.options.keysPerBatch := by
        have more : batch.keys < plan.scanner.options.keysPerBatch := by
          simpa [Selector.reachedLimit] using isOpen
        exact Nat.ne_of_lt more
      refine ⟨equipped, ⟨counted.positive, counted.last⟩, standing.within, ?_⟩
      rw [if_neg partial']
      have nothing : scope.keysBehind table batch.walk.range batch.last = [] :=
        keys_of_rejected rejected
      rw [nothing] at due
      exact due
  | failed failure => exact equipped

/-- Behind a full batch a worker goes on, with the keys behind the last one; behind any other batch
it does not. -/
theorem Counted.resumption {batch : ScanBatch} (counted : plan.Counted batch) :
    (batch.keys = plan.scanner.options.keysPerBatch ∧ ∃ key rest, batch.last = some key ∧
      plan.resumption? batch = some (.ok rest) ∧ ∀ other, rest.contains other = true ↔
        batch.walk.range.contains other = true ∧ key < other) ∨
    (batch.keys ≠ plan.scanner.options.keysPerBatch ∧ plan.resumption? batch = none) := by
  by_cases full : batch.keys = plan.scanner.options.keysPerBatch
  · rcases counted.last with none | ⟨key, last, inside⟩
    · have positive := counted.positive
      omega
    · obtain ⟨rest, resumed, behind⟩ := Scanner.resumeAfter_of_contains inside
      refine .inl ⟨full, key, rest, last, ?_, behind⟩
      rw [resumption?, if_pos full, last, Option.map_some, resumed]
  · exact .inr ⟨full, if_neg full⟩

/-- A worker that goes on behind a full batch has what is left of the partition in front of it. -/
theorem GoodPhase.resume {calls : List ScanCall} {setup : WorkerSetup ω} {batch : ScanBatch}
    {rest : KeyRange}
    (good : plan.GoodPhase store.toScanView scope table calls (.drawn setup batch none))
    (next : plan.resumption? batch = some (.ok rest)) :
    plan.GoodPhase store.toScanView scope table calls (.opening setup batch.part rest) := by
  obtain ⟨equipped, counted, within, due⟩ := good
  rcases counted.resumption with ⟨full, key, range, last, resumed, behind⟩ | ⟨-, none⟩
  · rw [resumed] at next
    obtain rfl := Except.ok.inj (Option.some.inj next)
    rw [if_pos full] at due
    refine ⟨equipped, within.narrow fun other inRest => ((behind other).1 inRest).1, ?_⟩
    rw [ScanScope.keysBehind_of_resumed behind, ← last]
    exact due
  · rw [none] at next
    exact nomatch next

/-- A worker that does not go on behind a batch has called for all keys of its partition. -/
theorem settled_of_ended {setup : WorkerSetup ω} {batch : ScanBatch}
    (good : plan.GoodPhase store.toScanView scope table shared.calls (.drawn setup batch none))
    (through : plan.resumption? batch = none) :
    plan.keysOf scope table batch.part = ScanCall.keysOf shared.calls batch.part := by
  obtain ⟨equipped, counted, within, due⟩ := good
  rcases counted.resumption with ⟨-, key, range, -, resumed, -⟩ | ⟨partial', -⟩
  · rw [resumed] at through
    exact nomatch through
  · rw [if_neg partial', Due, List.append_nil] at due
    exact due

/-- The slices that a call is given are those of the row at the beginning. -/
theorem GoodPhase.shown {view : ScanView plan.scanner} {calls : List ScanCall}
    {setup : WorkerSetup ω} {batch : ScanBatch} {row : KeyedRow} {found : RowSlices}
    (good : plan.GoodPhase view scope table calls (.reading setup batch row found [])) :
    RowSlices.Show table row.key (scope.driver :: scope.others)
      (found.put setup.driver row.entries) := by
  obtain ⟨equipped, -, atRow, asked, split, shown⟩ := good
  rw [List.append_nil] at split
  have whole := shown.put scope.driver
  rw [equipped.driver, atRow.shown]
  refine ⟨whole.once, ?_⟩
  intro slice entries
  rw [whole.members slice entries, ← split, List.mem_append, List.mem_singleton, List.mem_cons,
    or_comm]

/-- What a call comes to, whether the worker survives it or not. -/
theorem Advances.of_call (work : ScanWork store.toScanView plan.job scope changes)
    (apart : plan.Apart) (ledger : Ledger plan store.toScanView scope changes table shared)
    {setup : WorkerSetup ω} {batch : ScanBatch} {row : KeyedRow} {found : RowSlices}
    (good : plan.GoodPhase store.toScanView scope table shared.calls
      (.reading setup batch row found []))
    (begun : batch.part < shared.taken) {ending : Handled} {metered : Metered σ}
    (ran : plan.job.process setup.worker row.key (found.put setup.driver row.entries)
      shared.metered = (ending, metered))
    (goodAfter : ∀ calls, plan.Due scope table calls batch.part
        (scope.keysBehind table batch.walk.range (some row.key)) →
      plan.GoodPhase store.toScanView scope table calls after)
    (place : after.part? = some batch.part ∨ after.part? = none ∧ ending = .crashed) :
    plan.Advances store.toScanView scope changes table (.reading setup batch row found [])
      shared after ((shared.withMetered metered).handle (call setup batch row found ending)) := by
  have shown := GoodPhase.shown good
  obtain ⟨equipped, -, atRow, -⟩ := good
  have works := work.processes setup.worker row.key (found.put setup.driver row.entries)
    shared.metered equipped.starts ledger.ready
  rw [ran] at works
  have calls : ((shared.withMetered metered).handle (call setup batch row found ending)).calls =
      shared.calls ++ [call setup batch row found ending] := ScanShared.calls_handle _ _
  refine ⟨?_, ?_, ?_, ?_, works.cancelled, Nat.le_refl _, ?_, ?_⟩
  · have due : plan.Due scope table shared.calls (call setup batch row found ending).part
        ((call setup batch row found ending).key ::
          scope.keysBehind table batch.walk.range (some row.key)) := atRow.due
    exact ledger.handle apart due begun shown works
  · apply goodAfter
    have own := ScanCall.keysOf_append_own shared.calls (call setup batch row found ending)
    rw [Due, calls]
    show _ = ScanCall.keysOf _ (call setup batch row found ending).part ++ _
    rw [own, List.append_assoc]
    exact atRow.due
  · intro part other
    rw [calls]
    apply ScanCall.keysOf_append_other
    intro same
    exact other (congrArg some same)
  · intro event member
    exact List.mem_append_left _ member
  · intro part isPart
    rcases place with same | ⟨none, -⟩
    · exact .inl (same.symm.trans isPart)
    · rw [none] at isPart
      cases isPart
  · intro part before
    by_cases own : batch.part = part
    · rcases place with same | ⟨-, crashed⟩
      · exact .inr (.inl (own ▸ same))
      · refine .inr (.inr (.inr (.inr ⟨.called (call setup batch row found ending), ?_, ?_⟩)))
        · exact List.mem_append_right _ (List.mem_singleton_self _)
        · simp [ScanEvent.aborts, call, own, crashed]
    · exact .inl ⟨before, fun same => own (Option.some.inj same)⟩

/-- A partition that a worker takes has been left alone so far. -/
theorem Advances.of_taken (ledger : Ledger plan store.toScanView scope changes table shared)
    {setup : WorkerSetup ω} (good : plan.Equipped store.toScanView scope setup) {range : KeyRange}
    (next : plan.ranges[shared.taken]? = some range) :
    plan.Advances store.toScanView scope changes table (.seeking setup) shared
      (.opening setup shared.taken range) shared.take := by
  constructor
  · exact ledger.keeps (.refl _) rfl (Nat.le_succ _)
  · refine ⟨good, .self next, ?_⟩
    have none := ledger.ahead shared.taken (Nat.le_refl _)
    show plan.keysOf scope table shared.taken = ScanCall.keysOf shared.calls shared.taken ++ _
    rw [none, keysOf, next]
    rfl
  · exact fun _ _ => rfl
  · exact fun _ member => member
  · exact id
  · exact Nat.le_succ _
  · intro part isPart
    exact .inr ⟨(Option.some.inj isPart).symm, Nat.lt_succ_self _⟩
  · intro part before
    by_cases same : part = shared.taken
    · exact .inr (.inl (congrArg some same.symm))
    · have bound : part < shared.taken + 1 := before
      exact .inl ⟨by omega, fun is => nomatch is⟩

/-- A batch that has just been opened is at the front of its range. -/
theorem GoodPhase.opened {calls : List ScanCall} {setup : WorkerSetup ω} {part : Nat}
    {range : KeyRange}
    (good : plan.GoodPhase store.toScanView scope table calls (.opening setup part range))
    (positive : 0 < plan.scanner.options.keysPerBatch) :
    plan.GoodPhase store.toScanView scope table calls (.walking setup ⟨part,
      ⟨plan.store, range, setup.driver,
        Pager.new ⟨setup.filter, plan.scanner.options.keysPerBatch, 0⟩ Manager.scanPageRows⟩,
      0, none⟩) := by
  obtain ⟨equipped, within, due⟩ := good
  refine ⟨equipped, ⟨positive, .inl rfl⟩, ?_, due⟩
  refine ⟨rfl, equipped.driver, within, ?_, Nat.zero_le _, Pager.at_new _ _ _ _ _⟩
  rw [equipped.filter]
  rfl

/-- A slice that is read before the call for its row shows the row as it was at the beginning. -/
theorem GoodPhase.read (ledger : Ledger plan store.toScanView scope changes table shared)
    (apart : plan.Apart) {setup : WorkerSetup ω} {batch : ScanBatch} {row : KeyedRow}
    {found : RowSlices} {slice : Slice} {left : List Slice} {entries : List Entry}
    (good : plan.GoodPhase store.toScanView scope table shared.calls
      (.reading setup batch row found (slice :: left)))
    (answered : entries = Table.slice (store.table shared.world) row.key slice) :
    plan.GoodPhase store.toScanView scope table shared.calls
      (.reading setup batch row (found.put slice entries) left) := by
  obtain ⟨equipped, counted, atRow, asked, split, shown⟩ := good
  have same : entries = Table.slice table row.key slice := by
    rw [answered, Table.slice, Table.slice, ledger.untouched row.key
      (ledger.uncalled apart atRow.due List.mem_cons_self)]
  refine ⟨equipped, counted, atRow, asked ++ [slice], by simp [split], ?_⟩
  rw [same]
  exact shown.put slice

/-- A step of a worker leaves the work of the others as it is. -/
theorem WorkerStep.advances (work : ScanWork store.toScanView plan.job scope changes)
    (apart : plan.Apart) (ledger : Ledger plan store.toScanView scope changes table shared)
    (good : plan.GoodPhase store.toScanView scope table shared.calls phase)
    (begun : ∀ part, phase.part? = some part → part < shared.taken)
    (step : plan.WorkerStep phase shared after sharedAfter) :
    plan.Advances store.toScanView scope changes table phase shared after sharedAfter := by
  have isReady := ledger.ready
  cases step with
  | @created _ worker after ran =>
      have keeps := work.creates shared.world isReady
      rw [ran] at keeps
      exact .of_quiet ledger keeps rfl rfl trivial (fun _ is => is) fun _ is => nomatch is
  | @uncreated _ failure after ran =>
      have keeps := work.creates shared.world isReady
      rw [ran] at keeps
      exact .of_failed ledger keeps rfl rfl rfl fun _ is => nomatch is
  | @started _ worker ready after ran =>
      have keeps := work.starts plan.jobSettings plan.graphSettings worker shared.metered isReady
      rw [ran] at keeps
      refine .of_quiet ledger keeps rfl rfl ?_ (fun _ is => is) fun _ is => nomatch is
      exact ⟨_, _, worker, shared.metered, isReady, by rw [ran]⟩
  | @unstarted _ worker failure after ran =>
      have keeps := work.starts plan.jobSettings plan.graphSettings worker shared.metered isReady
      rw [ran] at keeps
      exact .of_failed ledger keeps rfl rfl rfl fun _ is => nomatch is
  | @setUp _ worker driver others queries =>
      have asked := work.queries worker good
      rw [queries] at asked
      obtain ⟨isDriver, isOthers⟩ := List.cons.inj asked
      refine .of_quiet ledger (.refl _) rfl rfl ?_ (fun _ is => is) fun _ is => nomatch is
      exact ⟨isDriver, isOthers, work.filters worker shared.world good isReady, good⟩
  | unequipped queries =>
      exact .of_failed ledger (.refl _) rfl rfl rfl fun _ is => nomatch is
  | halted enough =>
      exact .of_quiet ledger (.refl _) rfl rfl trivial (fun _ is => is) fun _ is => nomatch is
  | took running next => exact .of_taken ledger good next
  | @opened _ setup part range walk after ran =>
      obtain ⟨keeps, opens⟩ := Scanner.openBatch_result store setup range isReady ran
      obtain ⟨positive, rfl⟩ := opens walk rfl
      exact .of_quiet ledger keeps rfl rfl (good.opened positive) (fun _ is => is)
        fun _ is => .inl is
  | @unopened _ setup part range failure after ran =>
      obtain ⟨keeps, -⟩ := Scanner.openBatch_result store setup range isReady ran
      exact .of_failed ledger keeps rfl rfl rfl fun _ is => is
  | @drew _ setup batch row walk after ran =>
      obtain ⟨keeps, goodAfter⟩ := GoodPhase.draw ledger apart good ran
      exact .of_quiet ledger keeps rfl rfl goodAfter (fun _ is => is) fun _ is => .inl is
  | @ended _ setup batch through =>
      refine .of_quiet ledger (.refl _) rfl rfl good.1 (fun _ is => nomatch is) ?_
      intro part is
      obtain rfl := Option.some.inj is
      exact .inr (.inl (settled_of_ended good through))
  | @resumed _ setup batch rest next =>
      exact .of_quiet ledger (.refl _) rfl rfl (good.resume next) (fun _ is => is)
        fun _ is => .inl is
  | stuck next => exact .of_failed ledger (.refl _) rfl rfl rfl fun _ is => is
  | @cut _ setup batch row cancelled =>
      have equipped : plan.Equipped store.toScanView scope setup := by
        cases row with
        | error failure => exact good
        | ok row => exact good.1
      exact .of_quiet ledger (.refl _) rfl rfl equipped (fun _ is => nomatch is)
        fun _ _ => .inr (.inr (.inl cancelled))
  | broke running => exact .of_failed ledger (.refl _) rfl rfl rfl fun _ is => is
  | @held _ setup batch row running =>
      obtain ⟨equipped, counted, atRow⟩ := good
      refine .of_quiet ledger (.refl _) rfl rfl ?_ (fun _ is => is) fun _ is => .inl is
      exact ⟨equipped, counted, atRow, [], equipped.others.symm, RowSlices.show_nil _ _⟩
  | @read _ setup batch row found slice left entries after ran =>
      obtain ⟨keeps, answers⟩ := store.reads shared.world row.key slice isReady
      rw [ran] at keeps answers
      exact .of_quiet ledger keeps rfl rfl (good.read ledger apart (answers entries rfl))
        (fun _ is => is) fun _ is => .inl is
  | @unread _ setup batch row found slice left failure after ran =>
      obtain ⟨keeps, -⟩ := store.reads shared.world row.key slice isReady
      rw [ran] at keeps
      exact .of_failed ledger keeps rfl rfl rfl fun _ is => is
  | @handled _ setup batch row found ending after ran survived =>
      apply Advances.of_call work apart ledger good (begun _ rfl) ran _ (.inl rfl)
      obtain ⟨equipped, counted, atRow, -⟩ := good
      intro calls due
      exact ⟨equipped, ⟨counted.positive, .inr ⟨row.key, rfl, atRow.inside⟩⟩,
        { atRow.standing with }, due⟩
  | @crashed _ setup batch row found after ran =>
      exact .of_call work apart ledger good (begun _ rfl) ran (fun _ _ => trivial)
        (.inr ⟨rfl, rfl⟩)
  | @finished _ worker released after ran =>
      have keeps := work.finishes worker shared.metered isReady
      rw [ran] at keeps
      exact .of_quiet ledger keeps rfl rfl trivial (fun _ is => is) fun _ is => nomatch is
  | @unfinished _ worker failure after ran =>
      have keeps := work.finishes worker shared.metered isReady
      rw [ran] at keeps
      exact .of_failed ledger keeps rfl rfl rfl fun _ is => nomatch is

end ScanPlan

namespace ScanWorld

variable {σ ω : Type} {plan : ScanPlan σ ω} {store : ScanStore plan.scanner plan.store}
  {scope : ScanScope} {changes : RowChanges} {table : Table} {world after : ScanWorld σ ω}

theorem sound_start {view : ScanView plan.scanner} {initial : σ} (isReady : view.ready initial) :
    Sound plan view scope changes (view.table initial) (start plan initial) where
  ledger :=
    { ready := isReady
      untouched := fun _ _ => rfl
      calls := fun _ member => nomatch member
      fronts := fun _ => List.nil_prefix
      ahead := fun _ _ => rfl
      once := List.nodup_nil }
  phases index phase present := by
    obtain rfl := List.eq_of_mem_replicate (List.mem_of_getElem? present)
    trivial
  taken index phase part present isPart := by
    obtain rfl := List.eq_of_mem_replicate (List.mem_of_getElem? present)
    exact nomatch isPart
  apart left right leftPhase rightPhase part isLeft isRight atLeft _ := by
    obtain rfl := List.eq_of_mem_replicate (List.mem_of_getElem? isLeft)
    exact nomatch atLeft
  settled part begun := absurd begun (Nat.not_lt_zero _)

/-- A step of any worker keeps the scan sound. -/
theorem Sound.step (work : ScanWork store.toScanView plan.job scope changes)
    (apart : plan.Apart) (sound : Sound plan store.toScanView scope changes table world)
    (step : Step plan store.Keeps world after) :
    Sound plan store.toScanView scope changes table after := by
  cases step with
  | interference allowed => exact sound.interference allowed
  | @worker index phase after shared present step =>
      apply sound.advance present
      exact step.advances work apart sound.ledger (sound.phases index phase present)
        fun part isPart => sound.taken index phase part present isPart

/-- Every run keeps the scan sound. -/
theorem Sound.steps (work : ScanWork store.toScanView plan.job scope changes)
    (apart : plan.Apart) (sound : Sound plan store.toScanView scope changes table world)
    (steps : Steps plan store.Keeps world after) :
    Sound plan store.toScanView scope changes table after := by
  induction steps with
  | refl => exact sound
  | tail _ step inductionHypothesis => exact inductionHypothesis.step work apart step

/-- Every run from the start is sound. -/
theorem Steps.sound {initial : σ} (work : ScanWork store.toScanView plan.job scope changes)
    (apart : plan.Apart) (isReady : store.ready initial)
    (steps : Steps plan store.Keeps (start plan initial) world) :
    Sound plan store.toScanView scope changes (store.table initial) world :=
  Sound.steps work apart (sound_start isReady) steps

end ScanWorld

end GraphStore
