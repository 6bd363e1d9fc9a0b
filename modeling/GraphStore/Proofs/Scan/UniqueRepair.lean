import GraphStore.Proofs.Scan.RepairOutcome

/-!
Contract: what building a unique index comes to.

Owns who is found behind a rebuild of a unique index (`IndexRepair.unique_finds_last`). Such an
index has one column in each of its rows, and nothing keeps two elements apart whose combinations
of values lead to the same row: each call writes over the one before it. So what is found is the
element of the last call for the row, whichever that is, and an element that has its row for itself
is found for certain.
-/

namespace GraphStore

namespace IndexDescriptor

/-- An element of the row of a key has a combination of values that leads to a row of the index. -/
def Claims (index : IndexDescriptor) (schema : Schema) (extract : Extractor) (rows : Table)
    (key : Bytes) (element : UInt64) (rowKey : Bytes) : Prop :=
  ∃ values, index.Extracts schema extract rows key element values ∧
    index.lookup values = .ok (rowKey, Slice.fullRow)

end IndexDescriptor

namespace IndexRepair

section Calls

variable {index : IndexDescriptor} {schema : Schema} {extract : Extractor} {rows : Table}
  {before after : Bytes → Bytes → Option Bytes} {calls : List ScanCall}
  (wrote : Wrote index schema extract rows before after calls)
include wrote

/-- Each combination of values that is extracted from a row leads to a cell of its call. -/
theorem Wrote.cell_of_extracts {key : Bytes} {element : UInt64} {values : List Value}
    (extracts : index.Extracts schema extract rows key element values) :
    ∃ cell, index.indexCell values element = .ok cell := by
  obtain ⟨filled, leads, free, combinations, extracted, listed⟩ := extracts
  obtain ⟨call, member, rfl⟩ :=
    (wrote.called key).1 (includes_iff.2 ⟨filled, element, leads, free⟩)
  obtain ⟨cells, told⟩ := wrote.told call member
  rw [wrote.slices call member] at told
  obtain ⟨number, found, read, again, made⟩ := cellsOfRow_eq_ok.1 told
  obtain rfl : element = number := Except.ok.inj (leads.symm.trans read)
  obtain rfl : combinations = found := Except.ok.inj (extracted.symm.trans again)
  exact Result.ok_of_mapM made listed

theorem Wrote.claims_iff (unique : index.unique = true) {call : ScanCall} (member : call ∈ calls)
    {rowKey : Bytes} : (∃ element, index.Claims schema extract rows call.key element rowKey) ↔
      ∃ cell ∈ cellsOf index extract call.key call.slices,
        cell.isAt rowKey IndexDescriptor.uniqueColumn = true := by
  constructor
  · intro claims
    obtain ⟨element, values, extracts, looked⟩ := claims
    obtain ⟨cell, made⟩ := wrote.cell_of_extracts extracts
    have atRow : cell.key = rowKey := by
      have both := (IndexDescriptor.lookup_of_indexCell made).symm.trans looked
      exact (Prod.mk.inj (Except.ok.inj both)).1
    refine ⟨cell, (wrote.mem_cellsOf member).2 ⟨element, values, extracts, made⟩, ?_⟩
    exact IndexCell.isAt_iff.2 ⟨atRow, by
      rw [IndexDescriptor.entry_eq_entryOf made, IndexDescriptor.entryOf_of_unique unique]⟩
  · intro found
    obtain ⟨cell, inCall, placed⟩ := found
    obtain ⟨element, values, extracts, made⟩ := (wrote.mem_cellsOf member).1 inCall
    obtain ⟨rfl, -⟩ := IndexCell.isAt_iff.1 placed
    exact ⟨element, values, extracts, IndexDescriptor.lookup_of_indexCell made⟩

/-- The last call with a claim to a row has its element there. -/
theorem Wrote.found_of_last (unique : index.unique = true) {rowKey : Bytes}
    {front back : List ScanCall} {call : ScanCall} (split : calls = front ++ call :: back)
    {element : UInt64} (claims : index.Claims schema extract rows call.key element rowKey)
    (none : ∀ later ∈ back, ∀ other, ¬ index.Claims schema extract rows later.key other rowKey) :
    after rowKey IndexDescriptor.uniqueColumn = some (Bytes.ofUInt64 element) := by
  have member : call ∈ calls := split ▸ List.mem_append_right _ List.mem_cons_self
  have absent : ∀ cell ∈ back.flatMap fun call => cellsOf index extract call.key call.slices,
      ¬ cell.isAt rowKey IndexDescriptor.uniqueColumn = true := by
    intro cell inBack placed
    obtain ⟨later, listed, inLater⟩ := List.mem_flatMap.1 inBack
    have inCalls : later ∈ calls :=
      split ▸ List.mem_append_right _ (List.mem_cons_of_mem _ listed)
    obtain ⟨other, claimed⟩ := (wrote.claims_iff unique inCalls).2 ⟨cell, inLater, placed⟩
    exact none later listed other claimed
  rw [wrote.recorded, split, List.flatMap_append, List.flatMap_cons, IndexCell.overlay_append,
    IndexCell.overlay_append, IndexCell.overlay_of_absent absent]
  apply IndexCell.overlay_of_agree ((wrote.claims_iff unique member).1 ⟨element, claims⟩)
  intro cell inCall _
  obtain ⟨values, extracts, -⟩ := claims
  obtain ⟨other, others, otherExtracts, made⟩ := (wrote.mem_cellsOf member).1 inCall
  obtain rfl : element = other :=
    Except.ok.inj (extracts.2.1.symm.trans otherExtracts.2.1)
  rw [IndexDescriptor.entry_eq_entryOf made, IndexDescriptor.entryOf_of_unique unique]

end Calls

/-! ### Who is found -/

section Holder

variable {σ : Type} {manager : Manager σ} (rebuild : Rebuild manager) (rows : Table)

/-- Of all calls with a claim to a row of the index, the last one is for the holder. -/
def Rebuild.ClaimedLast (calls : List ScanCall) (rowKey : Bytes) (holder : UInt64) : Prop :=
  ∃ front call back, calls = front ++ call :: back ∧
    rebuild.index.Claims rebuild.schema rebuild.extract rows call.key holder rowKey ∧
    ∀ later ∈ back, ∀ other,
      ¬ rebuild.index.Claims rebuild.schema rebuild.extract rows later.key other rowKey

/-- The entry in the column of the index, read from the index store, is that of the holder. -/
def Rebuild.Finds (state : CachePool × σ) (rowKey : Bytes) (holder : UInt64) : Prop :=
  ∃ entries entry, manager.getSlice
      (rebuild.backend.refer state.2 rebuild.options.indexStore) rowKey Slice.fullRow state.2 =
        (.ok entries, state.2) ∧
    entries.find? (fun entry => entry.column = IndexDescriptor.uniqueColumn) = some entry ∧
    rebuild.index.elementOfEntry entry = .ok holder

end Holder

theorem Rebuild.finds_of_recorded {σ : Type} {manager : Manager σ} {rebuild : Rebuild manager}
    (unique : rebuild.index.unique = true) {state : CachePool × σ}
    (isReady : rebuild.store.ready state) {rowKey : Bytes} {holder : UInt64}
    (recorded : rebuild.recorded state rowKey IndexDescriptor.uniqueColumn =
      some (Bytes.ofUInt64 holder)) : rebuild.Finds state rowKey holder := by
  have read := rebuild.backend.reads state.2 rebuild.options.indexStore rowKey Slice.fullRow
    isReady.1
  have found := Table.find?_slice
    (Tables.table (rebuild.backend.tables state.2) rebuild.options.indexStore) rowKey
    (rfl : Slice.fullRow.limit = none)
    (by decide : Slice.fullRow.contains IndexDescriptor.uniqueColumn = true)
  rw [show Table.cell? _ rowKey IndexDescriptor.uniqueColumn = _ from recorded] at found
  have decoded := rebuild.index.elementOfEntry_entryOf holder
  rw [IndexDescriptor.entryOf_of_unique unique] at decoded
  exact ⟨_, _, read, found, decoded⟩

/-- Behind a completed rebuild of a unique index, a combination of values that has been extracted
for an element leads to a row in which the element of the last call with a claim to that row is
found. It is this element, if no other one has a claim. -/
theorem unique_finds_last {σ : Type} {manager : Manager σ} (rebuild : Rebuild manager)
    (unique : rebuild.index.unique = true) {initial : CachePool × σ}
    (isReady : rebuild.store.ready initial) (countable : rebuild.Countable initial)
    {world : ScanWorld (CachePool × σ) (Option IndexDescriptor)}
    (completes : rebuild.Completes initial world) {key : Bytes} {element : UInt64}
    {values : List Value} (extracts : rebuild.index.Extracts rebuild.schema rebuild.extract
      (rebuild.store.table initial) key element values) :
    ∃ rowKey holder, rebuild.index.lookup values = .ok (rowKey, Slice.fullRow) ∧
      rebuild.ClaimedLast (rebuild.store.table initial) world.shared.calls rowKey holder ∧
      rebuild.Finds world.shared.world rowKey holder ∧
      ((∀ otherKey other, rebuild.index.Claims rebuild.schema rebuild.extract
          (rebuild.store.table initial) otherKey other rowKey → other = element) →
        holder = element) := by
  have wrote := (completes.wrote isReady countable).2
  have ready := (completes.sound isReady).ledger.ready
  obtain ⟨cell, made⟩ := wrote.cell_of_extracts extracts
  have looked := IndexDescriptor.lookup_of_indexCell made
  have included : (scope rebuild.schema).Includes (rebuild.store.table initial) .full key :=
    includes_iff.2 ⟨extracts.1, element, extracts.2.1, extracts.2.2.1⟩
  obtain ⟨own, member, rfl⟩ := (wrote.called key).1 included
  have claimed : ∃ call ∈ world.shared.calls, ∃ holder, rebuild.index.Claims rebuild.schema
      rebuild.extract (rebuild.store.table initial) call.key holder cell.key :=
    ⟨own, member, element, values, extracts, looked⟩
  obtain ⟨front, call, back, split, ⟨holder, claims⟩, none⟩ := exists_last claimed
  have last : ∀ later ∈ back, ∀ other, ¬ rebuild.index.Claims rebuild.schema rebuild.extract
      (rebuild.store.table initial) later.key other cell.key :=
    fun later inBack other claimed => none later inBack ⟨other, claimed⟩
  have recorded := wrote.found_of_last unique split claims last
  refine ⟨cell.key, holder, looked, ⟨front, call, back, split, claims, last⟩,
    Rebuild.finds_of_recorded unique ready recorded, ?_⟩
  intro alone
  exact alone call.key holder claims

/-! ### Instances -/

/-- A unique index of that kind, which is enabled. -/
def byBadge : IndexDescriptor :=
  ⟨"byBadge", 7, .composite, .enabled, [⟨"badge", .new .bytes .single⟩], true⟩

/-- Two elements with one badge between them, and one with a badge of its own. -/
def badgeRows : CachePool × Memory :=
  (.empty 4, ⟨.ofTables (Log.applyAll [
      ⟨"edgestore", Bytes.ofUInt64 1, [⟨[1], [5]⟩], []⟩,
      ⟨"edgestore", Bytes.ofUInt64 2, [⟨[1], [5]⟩], []⟩,
      ⟨"edgestore", Bytes.ofUInt64 3, [⟨[1], [6]⟩], []⟩] .empty), false⟩)

def badgeRebuild : Rebuild Memory.manager where
  backend := Memory.scanBackend
  stripe := Stripe.ofKey
  bufferSize := 10
  schema := Schema.empty.define byBadge
  options := .standard
  extract := .ofColumns [[1]] .bytes
  name := "byBadge"
  index := byBadge
  scanning := ⟨1, 10, 1⟩
  reference := ⟨"edgestore", 0⟩
  jobSettings := .empty
  graphSettings := .empty
  found := rfl
  composite := rfl
  status := .inr rfl
  elsewhere := standard_apart
  manned := Nat.one_pos
  batched := Nat.zero_lt_succ _

def badgeKey (badge : UInt8) : Bytes := [0, 0, 0, 0, 0, 0, 0, 7, badge, 0, 1]

theorem ready_badgeRows : badgeRebuild.store.ready badgeRows :=
  ⟨rfl, rfl, CachePool.refers_empty 4⟩

theorem countable_badgeRows : badgeRebuild.Countable badgeRows := by
  show _ < Word.count 64
  decide +kernel

/-- The scan of the elements by one worker. -/
theorem completes_badgeRows : ∃ world, badgeRebuild.Completes badgeRows world ∧
    (badgeRebuild.scanner.scan badgeRebuild.job id .full .empty .empty badgeRows).2 =
      world.shared.world := by
  obtain ⟨world, runs, ran⟩ := badgeRebuild.exists_runs ready_badgeRows countable_badgeRows id
  have completed : (badgeRebuild.scanner.scan badgeRebuild.job id .full .empty .empty
      badgeRows).1.toOption.map ScanReport.state = some .completed := by
    decide +kernel
  rw [show badgeRebuild.scanner.scan badgeRebuild.job id .full .empty .empty badgeRows = _
    from ran] at completed
  exact ⟨world, ⟨runs, Option.some.inj completed⟩, congrArg Prod.snd ran⟩

/-- Only the third element has a claim to the row of its badge. -/
theorem sole_badge : ∀ key element, byBadge.Claims badgeRebuild.schema badgeRebuild.extract
    (badgeRebuild.store.table badgeRows) key element (badgeKey 6) → element = 3 := by
  intro key element claims
  obtain ⟨values, ⟨filled, leads, -, combinations, extracted, listed⟩, looked⟩ := claims
  have keyed := Table.mem_keys_of_row (Table.row_of_slice filled)
  have keys : (badgeRebuild.store.table badgeRows).keys = [1, 2, 3].map Bytes.ofUInt64 := by
    decide +kernel
  rw [keys] at keyed
  simp only [List.map_cons, List.map_nil, List.mem_cons, List.not_mem_nil, or_false] at keyed
  rcases keyed with rfl | rfl | rfl
  · obtain rfl : [[.bytes [5]]] = combinations := Except.ok.inj extracted
    obtain rfl := List.mem_singleton.1 listed
    exact absurd looked (by decide +kernel)
  · obtain rfl : [[.bytes [5]]] = combinations := Except.ok.inj extracted
    obtain rfl := List.mem_singleton.1 listed
    exact absurd looked (by decide +kernel)
  · exact (Except.ok.inj leads).symm

/-- The third element is found under its own badge. -/
theorem unique_finds_last_byBadge : ∃ world, badgeRebuild.Completes badgeRows world ∧
    byBadge.lookup [.bytes [6]] = .ok (badgeKey 6, Slice.fullRow) ∧
    badgeRebuild.ClaimedLast (badgeRebuild.store.table badgeRows) world.shared.calls
      (badgeKey 6) 3 ∧
    badgeRebuild.Finds world.shared.world (badgeKey 6) 3 := by
  obtain ⟨world, completes, -⟩ := completes_badgeRows
  have extracts : byBadge.Extracts badgeRebuild.schema badgeRebuild.extract
      (badgeRebuild.store.table badgeRows) (Bytes.ofUInt64 3) 3 [.bytes [6]] :=
    ⟨by decide +kernel, rfl, rfl, [[.bytes [6]]], rfl, List.mem_singleton_self _⟩
  obtain ⟨rowKey, holder, looked, last, finds, own⟩ := unique_finds_last badgeRebuild rfl
    ready_badgeRows countable_badgeRows completes extracts
  have here : byBadge.lookup [.bytes [6]] = .ok (badgeKey 6, Slice.fullRow) := by
    decide +kernel
  obtain rfl : rowKey = badgeKey 6 := (Prod.mk.inj (Except.ok.inj (looked.symm.trans here))).1
  obtain rfl := own sole_badge
  exact ⟨world, completes, looked, last, finds⟩

/-- A store with two rows: the second one has the key that the index gives to the value of the
first one. -/
def oneStoreRows : CachePool × Memory :=
  (.empty 4, ⟨.ofTables (Log.applyAll [
      ⟨"graph", Bytes.ofUInt64 1, [⟨[0], [5]⟩], []⟩,
      ⟨"graph", badgeKey 5, [⟨[0], [6]⟩], []⟩] .empty), false⟩)

/-- Building the index within the store of the elements, by a worker that takes a row at a time. -/
def oneStoreScan : Result ScanReport × (CachePool × Memory) :=
  (Scanner.pooled Memory.manager ⟨1, 1, 1⟩).scan
    (job (.pooled Memory.manager Stripe.ofKey 10 (Schema.empty.define byBadge)
      ⟨"__unknown_key__", "graph", "graph"⟩) (.ofColumns [[0]] .bytes) "byBadge")
    id .full .empty .empty oneStoreRows

/-- A completed rebuild loses an element whose badge another one has as well. Where the index is
kept among the rows of elements, it also loses an element that has its badge for itself: the row is
written over before its turn comes. -/
theorem unique_loses_element :
    (∃ world, badgeRebuild.Completes badgeRows world ∧
      byBadge.Extracts badgeRebuild.schema badgeRebuild.extract
        (badgeRebuild.store.table badgeRows) (Bytes.ofUInt64 1) 1 [.bytes [5]] ∧
      byBadge.lookup [.bytes [5]] = .ok (badgeKey 5, Slice.fullRow) ∧
      ∃ entry, (Memory.manager.getSlice ⟨"graphindex", 0⟩ (badgeKey 5) Slice.fullRow
        world.shared.world.2).1 = .ok [entry] ∧ byBadge.elementOfEntry entry = .ok 2) ∧
    oneStoreScan.1.toOption.map ScanReport.state = some .completed ∧
    byBadge.Extracts (Schema.empty.define byBadge) (.ofColumns [[0]] .bytes)
      (oneStoreRows.2.stores.table ⟨"graph", 0⟩) (badgeKey 5) 7 [.bytes [6]] ∧
    byBadge.lookup [.bytes [6]] = .ok (badgeKey 6, Slice.fullRow) ∧
    (Memory.manager.getSlice ⟨"graph", 0⟩ (badgeKey 6) Slice.fullRow oneStoreScan.2.2).1 =
      .ok [] := by
  refine ⟨?_, ?_, ?_, ?_, ?_⟩
  · obtain ⟨world, completes, left⟩ := completes_badgeRows
    refine ⟨world, completes, ?_, by decide +kernel, ⟨[0], Bytes.ofUInt64 2⟩, ?_, by decide +kernel⟩
    · exact ⟨by decide +kernel, rfl, rfl, [[.bytes [5]]], rfl, List.mem_singleton_self _⟩
    · rw [← left]
      decide +kernel
  · decide +kernel
  · exact ⟨by decide +kernel, rfl, rfl, [[.bytes [6]]], rfl, List.mem_singleton_self _⟩
  · decide +kernel
  · decide +kernel

end IndexRepair

end GraphStore
