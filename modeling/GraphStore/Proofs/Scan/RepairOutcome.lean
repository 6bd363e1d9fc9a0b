import GraphStore.Proofs.Results
import GraphStore.Proofs.Scan.RemovalOutcome
import GraphStore.Proofs.Scan.Repair

/-!
Contract: what building an index comes to.

Owns the outcome of a rebuild in which nothing fails (`IndexRepair.Wrote`): every row of an element
that is not reserved has had its call, and the cells of the calls lie on top of what the index store
held, in the order of the calls. For an index that is not unique the order does not matter
(`IndexRepair.rebuilds_exactly`).
-/

namespace GraphStore

namespace IndexRepair

section Cells

variable {index : IndexDescriptor} {schema : Schema} {extract : Extractor} {rows : Table}
  {key : Bytes} {cells : List IndexCell}

/-- A rebuild is about the rows with entries whose keys begin with an element that is not reserved.
-/
theorem includes_iff : (scope schema).Includes rows .full key ↔
    Table.slice rows key Slice.fullRow ≠ [] ∧
      ∃ element, Encoding.leadingUInt64 key = .ok element ∧ schema.isReserved element = false := by
  have shown : (scope schema).Includes rows .full key ↔
      Table.slice rows key Slice.fullRow ≠ [] ∧ (scope schema).filter key = true :=
    ⟨And.right, fun both => ⟨KeyRange.contains_full key, both⟩⟩
  rw [shown]
  apply and_congr_right
  intro filled
  unfold scope
  dsimp only
  cases leads : Encoding.leadingUInt64 key with
  | error failure => simp
  | ok element => simp

theorem cellsOfRow_eq_ok : cellsOfRow index extract key
      [(Slice.fullRow, Table.slice rows key Slice.fullRow)] = .ok cells ↔
    ∃ element combinations, Encoding.leadingUInt64 key = .ok element ∧
      extract index element (Table.slice rows key Slice.fullRow) = .ok combinations ∧
      IndexRepair.cells index element combinations = .ok cells := by
  have shown : (List.lookup Slice.fullRow
      [(Slice.fullRow, Table.slice rows key Slice.fullRow)]).getD [] =
        Table.slice rows key Slice.fullRow := by
    rw [List.lookup_cons_self, Option.getD_some]
  unfold cellsOfRow
  dsimp only
  rw [shown, Result.bind_eq_ok]
  simp only [Result.bind_eq_ok, exists_and_left]

/-- The cells of a row are those of its element under the combinations that are extracted. -/
theorem mem_cellsOfRow (included : (scope schema).Includes rows .full key)
    (told : cellsOfRow index extract key
      [(Slice.fullRow, Table.slice rows key Slice.fullRow)] = .ok cells) {cell : IndexCell} :
    cell ∈ cells ↔ ∃ element values, index.Extracts schema extract rows key element values ∧
      index.indexCell values element = .ok cell := by
  obtain ⟨filled, element, leads, free⟩ := includes_iff.1 included
  obtain ⟨number, combinations, read, extracted, told⟩ := cellsOfRow_eq_ok.1 told
  obtain rfl : element = number := Except.ok.inj (leads.symm.trans read)
  rw [Result.mem_of_mapM told]
  constructor
  · intro found
    obtain ⟨values, member, made⟩ := found
    exact ⟨element, values, ⟨filled, leads, free, combinations, extracted, member⟩, made⟩
  · intro found
    obtain ⟨other, values, ⟨-, otherLeads, -, others, otherShown, member⟩, made⟩ := found
    obtain rfl : element = other := Except.ok.inj (leads.symm.trans otherLeads)
    obtain rfl : combinations = others := Except.ok.inj (extracted.symm.trans otherShown)
    exact ⟨values, member, made⟩

/-- The cells of a row can be told when its values can be extracted and fit the index. -/
theorem tellable_of_extractable (holds : rows.HoldsElements)
    (extractable : index.Extractable schema extract rows)
    (included : (scope schema).Includes rows .full key) :
    ∃ cells, cellsOfRow index extract key
      [(Slice.fullRow, Table.slice rows key Slice.fullRow)] = .ok cells := by
  obtain ⟨filled, element, leads, free⟩ := includes_iff.1 included
  obtain ⟨present, rfl⟩ := holds.of_slice filled leads
  obtain ⟨combinations, extracted, fits⟩ := extractable element present free
  obtain ⟨cells, made⟩ := Result.mapM_of_ok fits
  exact ⟨cells, cellsOfRow_eq_ok.2 ⟨element, combinations, leads, extracted, made⟩⟩

end Cells

/-! ### Calls -/

/-- What a rebuild in which nothing has failed comes to, given its calls in their order. -/
structure Wrote (index : IndexDescriptor) (schema : Schema) (extract : Extractor) (rows : Table)
    (before after : Bytes → Bytes → Option Bytes) (calls : List ScanCall) : Prop where
  slices : ∀ call ∈ calls, call.slices = [(Slice.fullRow, Table.slice rows call.key Slice.fullRow)]
  told : ∀ call ∈ calls, ∃ cells, cellsOfRow index extract call.key call.slices = .ok cells
  once : (calls.map ScanCall.key).Nodup
  called : ∀ key, (scope schema).Includes rows .full key ↔ ∃ call ∈ calls, call.key = key
  recorded : after = IndexCell.overlay before
    (calls.flatMap fun call => cellsOf index extract call.key call.slices)

section Wrote

variable {index : IndexDescriptor} {schema : Schema} {extract : Extractor} {rows : Table}
  {before after : Bytes → Bytes → Option Bytes} {calls : List ScanCall}

theorem Wrote.mem_cellsOf (wrote : Wrote index schema extract rows before after calls)
    {call : ScanCall} (member : call ∈ calls) {cell : IndexCell} :
    cell ∈ cellsOf index extract call.key call.slices ↔
      ∃ element values, index.Extracts schema extract rows call.key element values ∧
        index.indexCell values element = .ok cell := by
  obtain ⟨cells, told⟩ := wrote.told call member
  rw [cellsOf_of_ok told]
  rw [wrote.slices call member] at told
  exact mem_cellsOfRow ((wrote.called call.key).2 ⟨call, member, rfl⟩) told

/-- The cells that are written are those of all elements under all their combinations. -/
theorem Wrote.mem_cells (wrote : Wrote index schema extract rows before after calls)
    {cell : IndexCell} :
    cell ∈ (calls.flatMap fun call => cellsOf index extract call.key call.slices) ↔
      ∃ key element values, index.Extracts schema extract rows key element values ∧
        index.indexCell values element = .ok cell := by
  rw [List.mem_flatMap]
  constructor
  · intro found
    obtain ⟨call, member, inCall⟩ := found
    exact ⟨call.key, (wrote.mem_cellsOf member).1 inCall⟩
  · intro found
    obtain ⟨key, element, values, extracts, made⟩ := found
    have included : (scope schema).Includes rows .full key :=
      includes_iff.2 ⟨extracts.1, element, extracts.2.1, extracts.2.2.1⟩
    obtain ⟨call, member, rfl⟩ := (wrote.called key).1 included
    exact ⟨call, member, (wrote.mem_cellsOf member).2 ⟨element, values, extracts, made⟩⟩

/-- Cells of an index that is not unique are the same in whatever order they are written. -/
theorem Wrote.rebuilt (wrote : Wrote index schema extract rows before after calls)
    (holds : rows.HoldsElements) (shared : index.unique = false) :
    index.Rebuilt schema extract rows before after where
  recorded cell called := by
    have written := wrote.mem_cells.2 ((IndexDescriptor.callsFor_iff holds).1 called)
    rw [wrote.recorded]
    apply IndexCell.overlay_of_agree ⟨cell, written, IndexCell.isAt_iff.2 ⟨rfl, rfl⟩⟩
    have empty : ∀ other ∈ (calls.flatMap fun call => cellsOf index extract call.key call.slices),
        other.entry.value = [] := by
      intro other member
      obtain ⟨_, element, values, -, made⟩ := wrote.mem_cells.1 member
      rw [IndexDescriptor.entry_eq_entryOf made, IndexDescriptor.entryOf_of_shared shared]
    intro other member _
    rw [empty other member, empty cell written]
  others key column absent := by
    rw [wrote.recorded]
    apply IndexCell.overlay_of_absent
    intro cell member
    exact absent cell ((IndexDescriptor.callsFor_iff holds).2 (wrote.mem_cells.1 member))

end Wrote

/-! ### Runs -/

theorem foldl_overlay {index : IndexDescriptor} {extract : Extractor} (calls : List ScanCall)
    (shown : Table × (Bytes → Bytes → Option Bytes)) :
    calls.foldl (fun shown call =>
        (shown.1, IndexCell.overlay shown.2 (cellsOf index extract call.key call.slices))) shown =
      (shown.1, IndexCell.overlay shown.2
        (calls.flatMap fun call => cellsOf index extract call.key call.slices)) := by
  induction calls generalizing shown with
  | nil => rfl
  | cons call calls inductionHypothesis =>
      rw [List.foldl_cons, List.flatMap_cons, IndexCell.overlay_append]
      exact inductionHypothesis _

namespace Rebuild

variable {σ : Type} {manager : Manager σ} (rebuild : Rebuild manager)

/-- The rows of elements, and one failure of each worker at both its ends, can be counted. -/
def Countable (state : CachePool × σ) : Prop :=
  (rebuild.store.table state).size + 2 * rebuild.scanning.workers < Word.count 64

/-- A run over all keys, whatever the order in which workers take their steps. -/
structure Runs (before : CachePool × σ)
    (world : ScanWorld (CachePool × σ) (Option IndexDescriptor)) : Prop where
  steps : ScanWorld.Steps rebuild.plan rebuild.Undisturbed (.start rebuild.plan before) world
  complete : world.Complete

/-- A run that is reported as completed. -/
structure Completes (before : CachePool × σ)
    (world : ScanWorld (CachePool × σ) (Option IndexDescriptor)) : Prop extends
    rebuild.Runs before world where
  completed : (world.report rebuild.plan).state = .completed

variable {rebuild} {initial : CachePool × σ}
  {world : ScanWorld (CachePool × σ) (Option IndexDescriptor)}

theorem Runs.kept (runs : rebuild.Runs initial world) :
    ScanWorld.Steps rebuild.plan rebuild.store.Keeps (.start rebuild.plan initial) world :=
  runs.steps.mono fun _ _ undisturbed => undisturbed.keeps

/-- Every run of a rebuild is sound as a scan. -/
theorem Runs.sound (runs : rebuild.Runs initial world) (isReady : rebuild.store.ready initial) :
    ScanWorld.Sound rebuild.plan rebuild.store.toScanView (scope rebuild.schema)
      (changes rebuild.index rebuild.extract rebuild.backend.reliable)
      (rebuild.store.table initial) world :=
  runs.kept.sound rebuild.work rebuild.tiles.apart isReady

section Outcome

variable (isReady : rebuild.store.ready initial) (countable : rebuild.Countable initial)
include isReady countable

theorem Runs.completed_iff (runs : rebuild.Runs initial world) :
    (world.report rebuild.plan).state = .completed ↔ world.shared.Flawless := by
  have few := ScanWorld.failures_countable rebuild.plan rebuild.work
    rebuild.tiles isReady countable runs.kept
  rw [ScanWorld.report_completed_iff rebuild.leavesTotals runs.kept few]
  exact and_iff_left rfl

/-- A completed rebuild leaves the rows of elements alone and has written what they call for. -/
theorem Completes.wrote (completes : rebuild.Completes initial world) :
    rebuild.store.table world.shared.world = rebuild.store.table initial ∧
      Wrote rebuild.index rebuild.schema rebuild.extract (rebuild.store.table initial)
        (rebuild.recorded initial) (rebuild.recorded world.shared.world) world.shared.calls := by
  have flawless := (completes.toRuns.completed_iff isReady countable).1 completes.completed
  have sound := completes.sound isReady
  have small : (rebuild.store.table initial).size < Word.count 64 := by
    unfold Countable at countable
    omega
  have covers := ScanWorld.coversOnce rebuild.plan rebuild.work
    rebuild.leavesTotals rebuild.manned rebuild.tiles isReady small completes.kept
    completes.complete flawless rfl
  have shown := completes.steps.shown_eq rebuild.affects rebuild.work
    rebuild.tiles.apart isReady covers.done
  rw [foldl_overlay] at shown
  obtain ⟨sameRows, onTop⟩ := Prod.mk.inj shown
  refine ⟨sameRows, ?_⟩
  constructor
  · intro call member
    have asked : RowSlices.Show (rebuild.store.table initial) call.key [Slice.fullRow]
        call.slices := covers.slices call member
    exact asked.eq_singleton
  · intro call member
    exact (sound.ledger.calls call member).change.2.1 (covers.done call member)
  · exact sound.ledger.once
  · intro key
    constructor
    · intro included
      have counted := covers.once key
      rw [if_pos included] at counted
      have member : key ∈ world.shared.calls.map ScanCall.key :=
        List.count_pos_iff.1 (by rw [counted]; exact Nat.one_pos)
      exact List.mem_map.1 member
    · intro called
      obtain ⟨call, member, rfl⟩ := called
      exact sound.ledger.includes rebuild.tiles member
  · exact onTop

/-- Where writes cannot fail, a run that can tell the cells of every row is completed. -/
theorem Runs.completed_of_reliable (runs : rebuild.Runs initial world)
    (reliable : rebuild.backend.reliable)
    (tellable : ∀ key, (scope rebuild.schema).Includes (rebuild.store.table initial) .full key →
      ∃ cells, cellsOfRow rebuild.index rebuild.extract key
        [(Slice.fullRow, Table.slice (rebuild.store.table initial) key Slice.fullRow)] =
          .ok cells) :
    (world.report rebuild.plan).state = .completed := by
  have steady : rebuild.store.Steady := rebuild.backend.steady_scanStore _ _ _ _ _ _
  have sound := runs.sound isReady
  have only := ScanWorld.Steps.calls_only steady rebuild.dependable
    rebuild.work rebuild.tiles.apart rebuild.batched isReady runs.kept
  apply (runs.completed_iff isReady countable).2
  apply only.flawless
  intro call member
  have good := sound.ledger.calls call member
  have shown : RowSlices.Show (rebuild.store.table initial) call.key [Slice.fullRow] call.slices :=
    good.slices
  apply good.change.2.2 reliable
  rw [shown.eq_singleton]
  exact tellable call.key (sound.ledger.includes rebuild.tiles member)

end Outcome

/-- The scanner makes such a run, whichever worker takes which partition. -/
theorem exists_runs (rebuild : Rebuild manager) {initial : CachePool × σ}
    (isReady : rebuild.store.ready initial) (countable : rebuild.Countable initial)
    (assignment : Nat → Nat) : ∃ world, rebuild.Runs initial world ∧
      rebuild.scanner.scan rebuild.job assignment .full rebuild.jobSettings rebuild.graphSettings
        initial = (.ok (world.report rebuild.plan), world.shared.world) := by
  have acquired : rebuild.scanner.manager.openStore rebuild.options.edgeStore initial =
      (.ok rebuild.reference, initial) :=
    IndexRemoval.openStore_pooled rebuild.backend rebuild.scanning isReady.1 isReady.2.1
  have small : (rebuild.store.table initial).size < Scanner.keyBound := by
    show _ < Word.count 64
    unfold Countable at countable
    omega
  obtain ⟨world, steps, complete, ran⟩ := Scanner.scan_steps rebuild.store rebuild.work
    rebuild.affects.keeps rebuild.manned rebuild.batched (rebuild.validate_apply initial) acquired
    isReady small assignment .full rebuild.jobSettings rebuild.graphSettings
  exact ⟨world, ⟨steps, complete⟩, ran⟩

end Rebuild

/-- Building an index that is not unique records every element that is not reserved under each of
its combinations of values, and changes no other cell. The result depends neither on the order in
which rows are processed nor on how often the index is built. Where writes cannot fail and the
values can be extracted, every run is completed. -/
theorem rebuilds_exactly {σ : Type} {manager : Manager σ} (rebuild : Rebuild manager)
    (shared : rebuild.index.unique = false) {initial : CachePool × σ}
    (isReady : rebuild.store.ready initial) (countable : rebuild.Countable initial)
    (holds : (rebuild.store.table initial).HoldsElements) :
    (∀ first, rebuild.Completes initial first →
      rebuild.index.Rebuilt rebuild.schema rebuild.extract (rebuild.store.table initial)
        (rebuild.recorded initial) (rebuild.recorded first.shared.world) ∧
      rebuild.store.table first.shared.world = rebuild.store.table initial ∧
      (∀ other, rebuild.Completes initial other →
        rebuild.recorded other.shared.world = rebuild.recorded first.shared.world) ∧
      ∀ between second, rebuild.Undisturbed first.shared.world between →
        rebuild.Completes between second →
        rebuild.recorded second.shared.world = rebuild.recorded first.shared.world) ∧
    (rebuild.backend.reliable →
      rebuild.index.Extractable rebuild.schema rebuild.extract (rebuild.store.table initial) →
      ∀ world, rebuild.Runs initial world → rebuild.Completes initial world) ∧
    ∀ assignment, ∃ world, rebuild.Runs initial world ∧
      rebuild.scanner.scan rebuild.job assignment .full rebuild.jobSettings rebuild.graphSettings
        initial = (.ok (world.report rebuild.plan), world.shared.world) := by
  refine ⟨?_, ?_, rebuild.exists_runs isReady countable⟩
  · intro first completes
    obtain ⟨sameRows, wrote⟩ := completes.wrote isReady countable
    have rebuilt := wrote.rebuilt holds shared
    refine ⟨rebuilt, sameRows, ?_, ?_⟩
    · intro other otherCompletes
      exact rebuilt.eq ((otherCompletes.wrote isReady countable).2.rebuilt holds shared)
    · intro between second undisturbed secondCompletes
      have sound := completes.sound isReady
      have sameTable : rebuild.store.table between = rebuild.store.table initial :=
        undisturbed.keeps.table.trans sameRows
      have stillCountable : rebuild.Countable between := by
        unfold Rebuild.Countable at countable ⊢
        rwa [sameTable]
      have again := (secondCompletes.wrote (undisturbed.keeps.ready sound.ledger.ready)
        stillCountable).2
      rw [sameTable, undisturbed.recorded] at again
      exact rebuilt.again (again.rebuilt holds shared)
  · intro reliable extractable world runs
    exact ⟨runs, runs.completed_of_reliable isReady countable reliable fun key included =>
      tellable_of_extractable holds extractable included⟩

/-! ### An instance -/

def byColor : IndexDescriptor :=
  ⟨"byColor", 7, .composite, .registered, [⟨"color", .new .bytes .single⟩], false⟩

/-- Two elements of one color, an element without a color and a reserved one. The index store has an
old cell of the first element, and a row of something else. -/
def colorRows : CachePool × Memory :=
  (.empty 4, ⟨.ofTables (Log.applyAll [
      ⟨"edgestore", Bytes.ofUInt64 1, [⟨[1], [5]⟩], []⟩,
      ⟨"edgestore", Bytes.ofUInt64 2, [⟨[1], [5]⟩, ⟨[2], [6]⟩], []⟩,
      ⟨"edgestore", Bytes.ofUInt64 3, [⟨[2], [6]⟩], []⟩,
      ⟨"edgestore", Bytes.ofUInt64 9, [⟨[1], [5]⟩], []⟩,
      ⟨"graphindex", [0, 0, 0, 0, 0, 0, 0, 7, 5, 0, 1], [⟨Bytes.ofUInt64 1, [7]⟩], []⟩,
      ⟨"graphindex", [7], [⟨[1], [8]⟩], []⟩] .empty), false⟩)

/-- Two workers that take one row at a time. -/
def colorRebuild : Rebuild Memory.manager where
  backend := Memory.scanBackend
  stripe := Stripe.ofKey
  bufferSize := 10
  schema := (Schema.empty.define byColor).withReserved 9 10
  options := .standard
  extract := .ofColumns [[1]] .bytes
  name := "byColor"
  index := byColor
  scanning := ⟨2, 1, 3⟩
  reference := ⟨"edgestore", 0⟩
  jobSettings := .empty
  graphSettings := .empty
  found := rfl
  composite := rfl
  status := .inl rfl
  elsewhere := standard_apart
  manned := Nat.zero_lt_succ _
  batched := Nat.one_pos

def colorKey : Bytes := [0, 0, 0, 0, 0, 0, 0, 7, 5, 0, 1]

theorem extractable_byColor : byColor.Extractable colorRebuild.schema colorRebuild.extract
    (colorRebuild.store.table colorRows) := by
  intro element present _
  have keyed := Table.mem_keys_of_row present
  have keys : (colorRebuild.store.table colorRows).keys = [1, 2, 3, 9].map Bytes.ofUInt64 := by
    decide +kernel
  rw [keys, List.mem_map] at keyed
  obtain ⟨number, listed, same⟩ := keyed
  obtain rfl := Bytes.ofUInt64_injective same
  have fits : ∀ number : UInt64, (byColor.indexCell [.bytes [5]] number) =
      .ok ⟨colorKey, ⟨Bytes.ofUInt64 number, []⟩⟩ := fun _ => rfl
  simp only [List.mem_cons, List.not_mem_nil, or_false] at listed
  rcases listed with rfl | rfl | rfl | rfl
  · exact ⟨[[.bytes [5]]], rfl, by simp [fits]⟩
  · exact ⟨[[.bytes [5]]], rfl, by simp [fits]⟩
  · exact ⟨[], rfl, by simp⟩
  · exact ⟨[[.bytes [5]]], rfl, by simp [fits]⟩

/-- A scan comes to an end, and so does a second one. The two elements share a row of the index, in
which the old cell of the first one is overwritten. -/
theorem rebuilds_exactly_byColor :
    ∃ first second, colorRebuild.Completes colorRows first ∧
      colorRebuild.Completes first.shared.world second ∧
      byColor.Rebuilt colorRebuild.schema colorRebuild.extract
        (colorRebuild.store.table colorRows) (colorRebuild.recorded colorRows)
        (colorRebuild.recorded first.shared.world) ∧
      colorRebuild.recorded second.shared.world = colorRebuild.recorded first.shared.world ∧
      [1, 2, 3, 9].map (fun element =>
        colorRebuild.recorded first.shared.world colorKey (Bytes.ofUInt64 element)) =
          [some [], some [], none, none] := by
  have isReady : colorRebuild.store.ready colorRows := ⟨rfl, rfl, CachePool.refers_empty 4⟩
  have countable : colorRebuild.Countable colorRows := by
    show _ < Word.count 64
    decide +kernel
  have holds : (colorRebuild.store.table colorRows).HoldsElements := by
    apply Table.holdsElements_of_entries
    decide +kernel
  obtain ⟨rebuilds, -, runs⟩ := rebuilds_exactly colorRebuild rfl isReady countable holds
  obtain ⟨first, firstRuns, ranFirst⟩ := runs id
  have completed : (colorRebuild.scanner.scan colorRebuild.job id .full .empty .empty
      colorRows).1.toOption.map ScanReport.state = some .completed := by
    decide +kernel
  rw [show colorRebuild.scanner.scan colorRebuild.job id .full .empty .empty colorRows = _
    from ranFirst] at completed
  have completes : colorRebuild.Completes colorRows first :=
    ⟨firstRuns, Option.some.inj completed⟩
  obtain ⟨rebuilt, sameRows, -, again⟩ := rebuilds first completes
  have stillReady := (firstRuns.sound isReady).ledger.ready
  have stillCountable : colorRebuild.Countable first.shared.world := by
    unfold Rebuild.Countable
    rw [sameRows]
    exact countable
  obtain ⟨-, sure, runsAgain⟩ := rebuilds_exactly colorRebuild rfl stillReady stillCountable
    (sameRows ▸ holds)
  obtain ⟨second, secondRuns, -⟩ := runsAgain id
  have completesAgain := sure trivial (sameRows ▸ extractable_byColor) second secondRuns
  refine ⟨first, second, completes, completesAgain, rebuilt,
    again first.shared.world second ⟨.refl _, rfl⟩ completesAgain, ?_⟩
  have left : (colorRebuild.scanner.scan colorRebuild.job id .full .empty .empty colorRows).2 =
      first.shared.world := congrArg Prod.snd ranFirst
  rw [← left]
  decide +kernel

end IndexRepair

end GraphStore
