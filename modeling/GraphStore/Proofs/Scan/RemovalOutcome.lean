import GraphStore.Proofs.Index.Ownership
import GraphStore.Proofs.Scan.Removal

/-!
Contract: what removing an index comes to.

Owns the outcome of a removal (`IndexRemoval.Removed`): the cells of the index are gone, except in
rows whose commit has failed, nothing else has changed, and the counters say so. Every complete run
comes to this (`IndexRemoval.removed`). The main result (`IndexRemoval.removes_exactly`) adds what a
second run does, and the indexes that are refused.
-/

namespace GraphStore

namespace ScanCall

def failedKeys (calls : List ScanCall) : List Bytes :=
  (calls.filter fun call => call.ending ≠ .done).map ScanCall.key

variable {calls : List ScanCall}

theorem mem_failedKeys {key : Bytes} :
    key ∈ failedKeys calls ↔ ∃ call ∈ calls, call.ending ≠ .done ∧ call.key = key := by
  simp [failedKeys, and_assoc]

theorem nodup_failedKeys (once : (calls.map ScanCall.key).Nodup) : (failedKeys calls).Nodup :=
  once.sublist (List.filter_sublist.map ScanCall.key)

/-- Where each key is called for once, a key that is done has not failed. -/
theorem not_failed_of_done (once : (calls.map ScanCall.key).Nodup) {call : ScanCall}
    (member : call ∈ calls) (done : call.ending = .done) : call.key ∉ failedKeys calls := by
  intro failed
  obtain ⟨other, listed, notDone, same⟩ := mem_failedKeys.1 failed
  have equal : other = call := List.inj_on_of_nodup_map once listed member same
  exact notDone (equal ▸ done)

end ScanCall

theorem ScanWorld.Ledger.length_failedKeys_lt {σ ω : Type} {plan : ScanPlan σ ω}
    {view : ScanView plan.scanner} {scope : ScanScope} {changes : RowChanges} {table : Table}
    {range : KeyRange} {shared : ScanShared σ}
    (ledger : ScanWorld.Ledger plan view scope changes table shared)
    (tiles : range.Tiles plan.ranges) (small : table.size < Word.count 64) :
    (ScanCall.failedKeys shared.calls).length < Word.count 64 := by
  calc (ScanCall.failedKeys shared.calls).length
      ≤ shared.calls.length := by
        rw [ScanCall.failedKeys, List.length_map]
        exact List.length_filter_le _ _
    _ ≤ (scope.keys table range).length := ledger.length_calls_le tiles
    _ ≤ table.size := ScanScope.length_keys_le _ _ _
    _ < Word.count 64 := small

namespace IndexRemoval

/-- What a removal has come to, given the keys that the job has failed on. -/
structure Removed (index : IndexDescriptor) (schema : Schema) (failed : List Bytes)
    (before after : Table) (report : ScanReport) : Prop where
  once : failed.Nodup
  concerned : ∀ key ∈ failed, ∃ column, index.owns schema key column = true ∧
    (Table.cell? before key column).isSome = true
  cells : ∀ key column, Table.cell? after key column =
    if index.owns schema key column = true ∧ key ∉ failed then none
    else Table.cell? before key column
  deleted : report.metrics.get deletes = UInt64.ofNat (Table.lost before after).length
  failures : report.metrics.failures.toNat = failed.length
  completed : report.state = .completed ↔ failed = []

/-- What a second removal has come to that fails on no key, behind one that has failed on the given
keys. -/
structure Completes (index : IndexDescriptor) (schema : Schema) (failed : List Bytes)
    (before between after : Table) (report : ScanReport) : Prop where
  state : report.state = .completed
  cells : ∀ key column, Table.cell? after key column =
    if index.owns schema key column = true then none else Table.cell? before key column
  leftover : ∀ key column, (key, column) ∈ Table.lost between after ↔
    index.owns schema key column = true ∧ key ∈ failed ∧
      (Table.cell? before key column).isSome = true
  deleted : report.metrics.get deletes = UInt64.ofNat (Table.lost between after).length
  nothing : failed = [] → report.metrics.get deletes = 0

section Twice

variable {index : IndexDescriptor} {schema : Schema} {failed : List Bytes}
  {before between after : Table} {firstReport secondReport : ScanReport}

theorem Removed.held (first : Removed index schema failed before between firstReport)
    (key column value : Bytes) (held : Table.cell? between key column = some value) :
    Table.cell? before key column = some value := by
  rw [first.cells] at held
  split at held
  · exact nomatch held
  · exact held

/-- A second removal that fails on no key removes what the first one has left. -/
theorem Removed.completes (first : Removed index schema failed before between firstReport)
    (second : Removed index schema [] between after secondReport) :
    Completes index schema failed before between after secondReport := by
  have cells : ∀ key column, Table.cell? after key column =
      if index.owns schema key column = true then none else Table.cell? before key column := by
    intro key column
    rw [second.cells, first.cells]
    by_cases owned : index.owns schema key column = true <;> simp [owned]
  have leftover : ∀ key column, (key, column) ∈ Table.lost between after ↔
      index.owns schema key column = true ∧ key ∈ failed ∧
        (Table.cell? before key column).isSome = true := by
    intro key column
    rw [Table.mem_lost, cells, first.cells]
    by_cases owned : index.owns schema key column = true
    · by_cases left : key ∈ failed <;> simp [owned, left]
    · cases Table.cell? before key column <;> simp [owned]
  refine ⟨second.completed.2 rfl, cells, leftover, second.deleted, ?_⟩
  intro none
  have empty : Table.lost between after = [] := by
    apply List.eq_nil_iff_forall_not_mem.2
    rintro ⟨key, column⟩ lost
    have left := ((leftover key column).1 lost).2.1
    rw [none] at left
    exact nomatch left
  rw [second.deleted, empty]
  rfl

end Twice

def cellsOf (calls : List ScanCall) : List (Bytes × Bytes) :=
  calls.flatMap fun call =>
    if call.ending = .done then (columns call.slices).map (Prod.mk call.key) else []

/-- The cells of calls are those of the rows that were done. -/
theorem mem_cellsOf {calls : List ScanCall} {key column : Bytes} :
    (key, column) ∈ cellsOf calls ↔ ∃ call ∈ calls, call.ending = .done ∧ call.key = key ∧
      column ∈ columns call.slices := by
  unfold cellsOf
  rw [List.mem_flatMap]
  apply exists_congr
  intro call
  by_cases done : call.ending = .done <;> simp [done, and_comm]

theorem length_cellsOf {σ : Type} (shared : ScanShared σ) : (cellsOf shared.calls).length =
    shared.amounts fun slices ending => if ending = .done then (columns slices).length else 0 := by
  unfold cellsOf ScanShared.amounts
  rw [List.length_flatMap]
  congr 2
  funext call
  split <;> simp [*]

theorem nodup_cellsOf {calls : List ScanCall} (once : (calls.map ScanCall.key).Nodup)
    (apart : ∀ call ∈ calls, (columns call.slices).Nodup) : (cellsOf calls).Nodup := by
  unfold cellsOf
  rw [List.nodup_flatMap]
  constructor
  · intro call member
    split
    · apply (apart call member).map
      intro left right same
      exact (Prod.mk.inj same).2
    · exact List.nodup_nil
  · apply (List.pairwise_map.1 once).imp
    intro left right different
    have keyOf : ∀ (call : ScanCall) (cell : Bytes × Bytes), cell ∈ (if call.ending = .done then
        (columns call.slices).map (Prod.mk call.key) else []) → cell.1 = call.key := by
      intro call cell listed
      split at listed
      · obtain ⟨_, _, rfl⟩ := List.mem_map.1 listed
        rfl
      · exact nomatch listed
    intro cell inLeft inRight
    apply different
    rw [← keyOf left cell inLeft, keyOf right cell inRight]

/-! ### Calls -/

section Calls

variable {index : IndexDescriptor} {schema : Schema} {options : IndexOptions} {table now : Table}

def scope (index : IndexDescriptor) (schema : Schema) (options : IndexOptions) : ScanScope :=
  ⟨index.span, [], (index.removal options).filter schema⟩

theorem columns_of_good {call : ScanCall}
    (good : ScanWorld.GoodCall (scope index schema options) changes table now call) :
    columns call.slices = (Table.slice table call.key index.span).map Entry.column := by
  have shown : RowSlices.Show table call.key [index.span] call.slices := good.slices
  rw [columns, shown.eq_singleton]
  simp

variable (removable : index.Removable table)
include removable

/-- A key that the scan is about is one of a row that holds cells of the index. -/
theorem includes_iff {key : Bytes} : (scope index schema options).Includes table .full key ↔
    ∃ column, index.owns schema key column = true ∧
      (Table.cell? table key column).isSome = true := by
  have uncapped := index.span_uncapped
  constructor
  · intro included
    obtain ⟨-, filled, accepted⟩ := included
    obtain ⟨entry, rest, shown⟩ := List.exists_cons_of_ne_nil filled
    have listed : entry.column ∈ (Table.slice table key index.span).map Entry.column := by
      apply List.mem_map_of_mem
      show entry ∈ Table.slice table key (scope index schema options).driver
      simp [shown]
    obtain ⟨within, held⟩ := (Table.mem_columns_slice table key uncapped).1 listed
    exact ⟨entry.column,
      (IndexDescriptor.owns_iff removable schema options held).2 ⟨accepted, within⟩, held⟩
  · intro owned
    obtain ⟨column, owns, held⟩ := owned
    obtain ⟨accepted, within⟩ := (IndexDescriptor.owns_iff removable schema options held).1 owns
    refine ⟨KeyRange.contains_full key, ?_, accepted⟩
    intro empty
    have listed := (Table.mem_columns_slice table key uncapped).2 ⟨within, held⟩
    rw [show Table.slice table key index.span = [] from empty] at listed
    exact nomatch listed

/-- The columns that a call is given are those of the index. -/
theorem mem_columns {call : ScanCall}
    (good : ScanWorld.GoodCall (scope index schema options) changes table now call)
    (included : (scope index schema options).Includes table .full call.key) {column : Bytes} :
    column ∈ columns call.slices ↔ index.owns schema call.key column = true ∧
      (Table.cell? table call.key column).isSome = true := by
  rw [columns_of_good good, Table.mem_columns_slice table call.key index.span_uncapped]
  constructor
  · intro both
    exact ⟨(IndexDescriptor.owns_iff removable schema options both.2).2
      ⟨included.2.2, both.1⟩, both.2⟩
  · intro both
    exact ⟨((IndexDescriptor.owns_iff removable schema options both.2).1 both.1).2, both.2⟩

variable {calls : List ScanCall}
  (exhausts : ScanWorld.Exhausts (scope index schema options) changes .full table now calls)
include exhausts

/-- A cell of the index is gone if its row has not failed; every other cell is as it was. -/
theorem cell?_of_exhausts (key column : Bytes) : Table.cell? now key column =
    if index.owns schema key column = true ∧ key ∉ ScanCall.failedKeys calls then none
    else Table.cell? table key column := by
  by_cases called : ∃ call ∈ calls, call.key = key
  · obtain ⟨call, member, rfl⟩ := called
    have good := exhausts.good call member
    have listed : column ∈ columns call.slices ↔ _ :=
      mem_columns removable good (exhausts.included call member)
    show (Table.row now call.key).find? column = _
    rcases good.change with ⟨done, found⟩ | ⟨⟨failure, failed⟩, same⟩
    · have spared := ScanCall.not_failed_of_done exhausts.once member done
      rw [found column]
      by_cases owned : index.owns schema call.key column = true
      · have removed : index.owns schema call.key column = true ∧
            call.key ∉ ScanCall.failedKeys calls := ⟨owned, spared⟩
        rw [if_pos removed]
        split
        · rfl
        · rename_i absent
          apply Option.not_isSome_iff_eq_none.1
          intro held
          exact absent (listed.2 ⟨owned, held⟩)
      · have absent : column ∉ columns call.slices := fun own => owned (listed.1 own).1
        rw [if_neg absent, if_neg fun both => owned both.1]
        rfl
    · have inFailed : call.key ∈ ScanCall.failedKeys calls :=
        ScanCall.mem_failedKeys.2 ⟨call, member, by simp [failed], rfl⟩
      rw [if_neg fun both => both.2 inFailed, same]
      rfl
  · have same := exhausts.untouched key fun call member own => called ⟨call, member, own⟩
    show (Table.row now key).find? column = _
    rw [same]
    split
    · rename_i owned
      apply Option.not_isSome_iff_eq_none.1
      intro held
      exact called (exhausts.called key ((includes_iff removable).2 ⟨column, owned.1, held⟩))
    · rfl

/-- What the calls have removed is what the table has lost. -/
theorem perm_lost : (cellsOf calls).Perm (Table.lost table now) := by
  have apart : ∀ call ∈ calls, (columns call.slices).Nodup := by
    intro call member
    rw [columns_of_good (exhausts.good call member)]
    exact Table.nodup_columns_slice table call.key index.span_uncapped
  have both := nodup_cellsOf exhausts.once apart
  apply (List.perm_ext_iff_of_nodup both (Table.nodup_lost table now)).2
  rintro ⟨key, column⟩
  rw [mem_cellsOf, Table.mem_lost, cell?_of_exhausts removable exhausts]
  constructor
  · intro removed
    obtain ⟨call, member, done, rfl, listed⟩ := removed
    obtain ⟨owned, held⟩ := (mem_columns removable (exhausts.good call member)
      (exhausts.included call member)).1 listed
    exact ⟨held, if_pos ⟨owned, ScanCall.not_failed_of_done exhausts.once member done⟩⟩
  · intro lost
    obtain ⟨held, gone⟩ := lost
    have owned : index.owns schema key column = true ∧ key ∉ ScanCall.failedKeys calls := by
      apply Classical.byContradiction
      intro kept
      rw [if_neg kept] at gone
      rw [gone] at held
      exact nomatch held
    obtain ⟨call, member, rfl⟩ :=
      exhausts.called key ((includes_iff removable).2 ⟨column, owned.1, held⟩)
    have done : call.ending = .done := by
      apply Classical.byContradiction
      intro failed
      exact owned.2 (ScanCall.mem_failedKeys.2 ⟨call, member, failed, rfl⟩)
    exact ⟨call, member, done, rfl, (mem_columns removable (exhausts.good call member)
      (exhausts.included call member)).2 ⟨owned.1, held⟩⟩

end Calls

/-! ### Complete runs -/

section Runs

variable {σ : Type} {manager : Manager σ} (backend : ScanBackend manager)
  (atomic : backend.RowsAtomic) (stripe : Bytes → Stripe) (bufferSize : Nat) {schema : Schema}
  {options : IndexOptions} {name : String} {index : IndexDescriptor} {scanning : ScanOptions}
  (manned : 0 < scanning.workers) (batched : 0 < scanning.keysPerBatch) {reference : StoreRef}
  (jobSettings graphSettings : Configuration)
include atomic manned batched

/-- The outcome of a complete run in which fewer rows fail than can be counted. -/
theorem removed (resolved : RemovalTarget.resolve schema options name = .ok (index.removal options))
    {initial : CachePool × σ} {world : ScanWorld (CachePool × σ) (Option RemovalTarget)} :
    let store := backend.pooledStore scanning (index.home options) reference
    let plan := (Scanner.pooled manager scanning).plan
      (job (.pooled manager stripe bufferSize schema options) name) reference .full jobSettings
      graphSettings
    store.ready initial → index.Removable (store.table initial) →
    ScanWorld.Steps plan store.Keeps (.start plan initial) world → world.Complete →
    (ScanCall.failedKeys world.shared.calls).length < Word.count 64 →
    Removed index schema (ScanCall.failedKeys world.shared.calls) (store.table initial)
      (store.table world.shared.world) (world.report plan) := by
  intro store plan isReady removable steps complete countable
  have steady : store.Steady := backend.steady_scanStore _ _ _ _ _ _
  have dependable := dependable backend stripe bufferSize resolved scanning reference
  have work : ScanWork store.toScanView plan.job (scope index schema options) changes :=
    work backend stripe bufferSize resolved scanning reference atomic
  have tiles := (Scanner.pooled manager scanning).plan_tiles
    (job (.pooled manager stripe bufferSize schema options) name) reference .full jobSettings
    graphSettings
  have survives : ∀ key slices before after, ¬ changes key slices .crashed before after := by
    intro key slices before after change
    rcases change with ⟨done, -⟩ | ⟨⟨failure, failed⟩, -⟩
    · exact nomatch done
    · exact nomatch failed
  have exhausts := steps.exhausts steady dependable work tiles manned batched isReady complete
    survives rfl
  have only := steps.calls_only steady dependable work tiles.apart batched isReady
  have deleted := steps.counter_eq (counts_deletes backend stripe bufferSize resolved scanning
    reference) work tiles.apart isReady
  have failures : world.shared.failures = (ScanCall.failedKeys world.shared.calls).length := by
    rw [only.failures, ScanCall.failedKeys, List.length_map, List.countP_eq_length_filter]
  have counted : world.shared.metrics.failures.toNat =
      (ScanCall.failedKeys world.shared.calls).length := by
    rw [(ScanWorld.totals (leavesTotals stripe bufferSize resolved) steps).2, failures,
      UInt64.toNat_ofNat_of_lt' countable]
  constructor
  · exact ScanCall.nodup_failedKeys exhausts.once
  · intro key failed
    obtain ⟨call, member, -, rfl⟩ := ScanCall.mem_failedKeys.1 failed
    exact (includes_iff removable).1 (exhausts.included call member)
  · exact cell?_of_exhausts removable exhausts
  · show world.shared.metrics.get _ = _
    rw [deleted, ← (perm_lost removable exhausts).length_eq, length_cellsOf]
  · exact counted
  · rw [← List.length_eq_zero_iff, ← counted]
    rw [ScanReport.state_eq_completed, ← UInt64.toNat_inj]
    exact and_iff_left rfl

end Runs

theorem openStore_pooled {σ : Type} {manager : Manager σ} (backend : ScanBackend manager)
    (scanning : ScanOptions) {state : CachePool × σ} {name : String} {reference : StoreRef}
    (isOpen : backend.isOpen state.2 = true) (refer : backend.refer state.2 name = reference) :
    (Scanner.pooled manager scanning).manager.openStore name state = (.ok reference, state) := by
  have shown : manager.openStore name (Part.second.view state) = (.ok reference, state.2) := by
    rw [← refer]
    exact backend.openStore_of_open isOpen name
  show Part.second.run (manager.openStore name) state = _
  rw [Part.run_apply, shown]
  rfl

/-- An index that is refused is refused before anything is read. -/
theorem scan_refused {σ : Type} {manager : Manager σ} (stripe : Bytes → Stripe) (bufferSize : Nat)
    {schema : Schema} {options : IndexOptions} {name : String} {failure : StoreError}
    {scanning : ScanOptions} (manned : 0 < scanning.workers) (batched : 0 < scanning.keysPerBatch)
    (refused : RemovalTarget.resolve schema options name = .error failure)
    (assignment : Nat → Nat) (range : KeyRange) (jobSettings graphSettings : Configuration)
    (state : CachePool × σ) :
    (Scanner.pooled manager scanning).scan
      (job (.pooled manager stripe bufferSize schema options) name) assignment range jobSettings
      graphSettings state = (.error failure, state) := by
  have invalid : (job (.pooled manager stripe bufferSize schema options) name).validate state =
      (.error failure, state) :=
    Action.bind_of_error (resolve_apply stripe bufferSize refused state)
  exact Scanner.scan_of_invalid manned batched invalid assignment range jobSettings graphSettings

/-- Removing an index takes exactly its cells out of its store, whatever commits fail and however
the workers take turns. A second run without failures takes out what is left. A mixed index, or one
that is not disabled, is refused. -/
theorem removes_exactly {σ : Type} {manager : Manager σ} (backend : ScanBackend manager)
    (atomic : backend.RowsAtomic) (stripe : Bytes → Stripe) (bufferSize : Nat) {schema : Schema}
    (options : IndexOptions) {name : String} {index : IndexDescriptor}
    (found : schema.index name = .ok index) {scanning : ScanOptions}
    (manned : 0 < scanning.workers) (batched : 0 < scanning.keysPerBatch) (reference : StoreRef)
    (jobSettings graphSettings : Configuration) :
    let scanner := Scanner.pooled manager scanning
    let removal := job (.pooled manager stripe bufferSize schema options) name
    let store := backend.pooledStore scanning (index.home options) reference
    let plan := scanner.plan removal reference .full jobSettings graphSettings
    let Runs := fun before (world : ScanWorld (CachePool × σ) (Option RemovalTarget)) =>
      ScanWorld.Steps plan store.Keeps (.start plan before) world ∧ world.Complete
    (index.status = .disabled → ∀ initial, store.ready initial →
      index.Removable (store.table initial) → (store.table initial).size < Word.count 64 →
      (∀ first, Runs initial first →
        Removed index schema (ScanCall.failedKeys first.shared.calls) (store.table initial)
          (store.table first.shared.world) (first.report plan) ∧
        store.ready first.shared.world ∧
        ∀ between second, store.Keeps first.shared.world between → Runs between second →
          ScanCall.failedKeys second.shared.calls = [] →
          Completes index schema (ScanCall.failedKeys first.shared.calls) (store.table initial)
            (store.table between) (store.table second.shared.world) (second.report plan)) ∧
      ∀ before, store.ready before → (store.table before).size < Word.count 64 → ∀ assignment,
        ∃ world, Runs before world ∧
          scanner.scan removal assignment .full jobSettings graphSettings before =
            (.ok (world.report plan), world.shared.world)) ∧
    (index.isMixed = true → ∀ state assignment,
      scanner.scan removal assignment .full jobSettings graphSettings state =
        (.error (.unsupported .mixedRemoval), state)) ∧
    (index.isMixed = false → index.status ≠ .disabled → ∀ state assignment,
      scanner.scan removal assignment .full jobSettings graphSettings state =
        (.error (.precondition (.notDisabled name index.status.label)), state)) := by
  intro scanner removal store plan Runs
  refine ⟨?_, ?_, ?_⟩
  · intro disabled initial isReady removable small
    have resolved : RemovalTarget.resolve schema options name = .ok (index.removal options) :=
      RemovalTarget.resolve_of_removable found disabled removable
    have work : ScanWork store.toScanView removal (scope index schema options) changes :=
      work backend stripe bufferSize resolved scanning reference atomic
    have tiles := scanner.plan_tiles removal reference .full jobSettings graphSettings
    constructor
    · intro first firstRun
      have sound := firstRun.1.sound work tiles.apart isReady
      have firstRemoved := removed backend atomic stripe bufferSize manned batched jobSettings
        graphSettings resolved isReady removable firstRun.1 firstRun.2
        (sound.ledger.length_failedKeys_lt tiles small)
      refine ⟨firstRemoved, sound.ledger.ready, ?_⟩
      intro between second keeps secondRun none
      have stillRemovable : index.Removable (store.table between) := by
        apply removable.mono
        rw [keeps.table]
        exact firstRemoved.held
      have secondRemoved := removed backend atomic stripe bufferSize manned batched jobSettings
        graphSettings resolved (keeps.ready sound.ledger.ready) stillRemovable secondRun.1
        secondRun.2 (by rw [none]; decide)
      rw [none, keeps.table] at secondRemoved
      rw [keeps.table]
      exact firstRemoved.completes secondRemoved
    · intro before beforeReady beforeSmall assignment
      have acquired : scanner.manager.openStore (index.home options) before =
          (.ok reference, before) :=
        openStore_pooled backend scanning beforeReady.1 beforeReady.2.1
      obtain ⟨world, steps, complete, ran⟩ := Scanner.scan_run store work manned batched
        (validate_apply stripe bufferSize resolved before) acquired beforeReady beforeSmall
        assignment .full jobSettings graphSettings
      exact ⟨world, ⟨steps, complete⟩, ran⟩
  · intro mixed state assignment
    exact scan_refused stripe bufferSize manned batched (RemovalTarget.resolve_of_mixed found mixed)
      assignment .full jobSettings graphSettings state
  · intro other status state assignment
    exact scan_refused stripe bufferSize manned batched
      (RemovalTarget.resolve_of_status found other status) assignment .full jobSettings
      graphSettings state

/-! ### An instance -/

def byFlag : IndexDescriptor :=
  ⟨"byFlag", 7, .composite, .disabled, [⟨"flag", .new .boolean .single⟩], false⟩

/-- A backend with two rows of the index, a row of another one and a row whose key is too short. Its
log refuses the next record. -/
def flagRows : CachePool × Embedded :=
  (.empty 4, ⟨.ofTables (Log.applyAll [
      ⟨"graphindex", [0, 0, 0, 0, 0, 0, 0, 7, 0], [⟨Bytes.ofUInt64 2, []⟩], []⟩,
      ⟨"graphindex", [0, 0, 0, 0, 0, 0, 0, 7, 1],
        [⟨Bytes.ofUInt64 1, []⟩, ⟨Bytes.ofUInt64 3, []⟩], []⟩,
      ⟨"graphindex", [0, 0, 0, 0, 0, 0, 0, 8], [⟨[1], []⟩], []⟩,
      ⟨"graphindex", [7], [⟨[1], []⟩], []⟩] .empty),
    LogWriter.new ⟨[], 0, [.fails 0], none, true⟩ 0 0 false, false, ⟨0, 0, 0⟩, none⟩)

/-- The store of the rows, for two workers that take one key at a time. -/
def flagStore : ScanStore (Scanner.pooled Embedded.manager ⟨2, 1, 3⟩) ⟨"graphindex", 0⟩ :=
  Embedded.scanBackend.pooledStore ⟨2, 1, 3⟩ "graphindex" ⟨"graphindex", 0⟩

def flagRemoval (index : IndexDescriptor) :
    ScanJob (CachePool × Embedded) (Option RemovalTarget) :=
  job (.pooled Embedded.manager Stripe.ofKey 10 (Schema.empty.define index) .standard) "byFlag"

def flagScan (index : IndexDescriptor) : Action (CachePool × Embedded) ScanReport :=
  (Scanner.pooled Embedded.manager ⟨2, 1, 3⟩).scan (flagRemoval index) id .full .empty .empty

def flagPlan : ScanPlan (CachePool × Embedded) (Option RemovalTarget) :=
  (Scanner.pooled Embedded.manager ⟨2, 1, 3⟩).plan (flagRemoval byFlag) ⟨"graphindex", 0⟩ .full
    .empty .empty

theorem removable_byFlag : byFlag.Removable (flagStore.table flagRows) := by
  intro key column value held front
  have listed : (key, column) ∈ (flagStore.table flagRows).cells :=
    Table.mem_cells.2 (Option.isSome_iff_exists.2 ⟨value, held⟩)
  have recorded : ∀ cell ∈ (flagStore.table flagRows).cells,
      cell.1.take 8 = Bytes.ofUInt64 7 →
      Table.cell? (flagStore.table flagRows) cell.1 cell.2 = some [] ∧
        ∃ made ∈ [(false, 2), (true, 1), (true, 3)],
          byFlag.indexCell [.bool made.1] made.2 = .ok ⟨cell.1, ⟨cell.2, []⟩⟩ := by
    decide +kernel
  obtain ⟨shown, made, -, isCell⟩ := recorded (key, column) listed front
  have nothing : value = [] := Option.some.inj (held.symm.trans shown)
  exact ⟨[.bool made.1], made.2, nothing ▸ isCell⟩

/-- The commit of the first row fails and that of the second one does not; a second scan takes out
the cell that is left. An enabled and a mixed index of that name are refused. -/
theorem removes_exactly_byFlag :
    (∃ first second : ScanWorld (CachePool × Embedded) (Option RemovalTarget),
      (ScanCall.failedKeys first.shared.calls).length = 1 ∧
      Removed byFlag (Schema.empty.define byFlag) (ScanCall.failedKeys first.shared.calls)
        (flagStore.table flagRows) (flagStore.table first.shared.world)
        (first.report flagPlan) ∧
      Completes byFlag (Schema.empty.define byFlag) (ScanCall.failedKeys first.shared.calls)
        (flagStore.table flagRows) (flagStore.table first.shared.world)
        (flagStore.table second.shared.world) (second.report flagPlan) ∧
      (second.report flagPlan).metrics.get deletes = 1) ∧
    flagScan (byFlag.withStatus .enabled) flagRows =
      (.error (.precondition (.notDisabled "byFlag" "enabled")), flagRows) ∧
    flagScan { byFlag with indexType := .mixed "search" } flagRows =
      (.error (.unsupported .mixedRemoval), flagRows) := by
  have removal := fun (index : IndexDescriptor)
      (found : (Schema.empty.define index).index "byFlag" = .ok index) =>
    removes_exactly Embedded.scanBackend Embedded.rowsAtomic Stripe.ofKey 10 .standard found
      (by decide : 0 < (⟨2, 1, 3⟩ : ScanOptions).workers) (by decide) ⟨"graphindex", 0⟩ .empty
      .empty
  refine ⟨?_, ?_, ?_⟩
  · have removes := (removal byFlag rfl).1 rfl
    have isReady : flagStore.ready flagRows := ⟨rfl, rfl, CachePool.refers_empty 4⟩
    have small : (flagStore.table flagRows).size < Word.count 64 := by decide +kernel
    obtain ⟨runs, scans⟩ := removes flagRows isReady removable_byFlag small
    obtain ⟨first, firstRun, ranFirst⟩ := scans flagRows isReady small id
    obtain ⟨removed, stillReady, again⟩ := runs first firstRun
    have left : (flagScan byFlag flagRows).2 = first.shared.world := congrArg Prod.snd ranFirst
    have stillSmall : (flagStore.table first.shared.world).size < Word.count 64 := by
      rw [← left]
      decide +kernel
    obtain ⟨second, secondRun, ranSecond⟩ := scans first.shared.world stillReady stillSmall id
    obtain ⟨removedAgain, -⟩ := (removes first.shared.world stillReady
      (removable_byFlag.mono removed.held) stillSmall).1 second secondRun
    have reported : (flagScan byFlag flagRows).1.toOption.map (fun report =>
        report.metrics.failures.toNat) = some 1 := by
      decide +kernel
    have reportedAgain : (flagScan byFlag (flagScan byFlag flagRows).2).1.toOption.map
        (fun report => (report.metrics.failures.toNat, report.metrics.get deletes)) =
          some (0, 1) := by
      decide +kernel
    rw [show flagScan byFlag flagRows = _ from ranFirst] at reported
    rw [left, show flagScan byFlag first.shared.world = _ from ranSecond] at reportedAgain
    obtain ⟨failures, deleted⟩ := Prod.mk.inj (Option.some.inj reportedAgain)
    have none : ScanCall.failedKeys second.shared.calls = [] :=
      List.length_eq_zero_iff.1 (removedAgain.failures.symm.trans failures)
    exact ⟨first, second, removed.failures.symm.trans (Option.some.inj reported), removed,
      again _ second (.refl _) secondRun none, deleted⟩
  · exact (removal _ rfl).2.2 rfl (by decide) flagRows id
  · exact (removal _ rfl).2.1 rfl flagRows id

end IndexRemoval

end GraphStore
