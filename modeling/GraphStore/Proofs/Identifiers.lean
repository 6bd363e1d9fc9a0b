import GraphStore.Proofs.Ids.ForeignCells
import GraphStore.Proofs.Scan.RepairOutcome

/-!
Contract: identifiers of fixed width, wherever they are read.

Owns what becomes of a watermark cell, of the entry of an index row and of a row of elements whose
bytes are not those of an identifier. All three are read by the same decoder, which takes the first
eight bytes and does not look behind them: what is too short is refused, and what is too long is
taken for the identifier at its front (`identifiers_exact`).
-/

namespace GraphStore

open Encoding

/-! ### Entries -/

namespace IndexDescriptor

variable {index : IndexDescriptor}

/-- The bytes of an entry that stand for an element. -/
def reference (index : IndexDescriptor) (entry : Entry) : Bytes :=
  if index.unique then entry.value else entry.column

theorem reference_of_indexCell {values : List Value} {element : UInt64} {cell : IndexCell}
    (made : index.indexCell values element = .ok cell) :
    index.reference cell.entry = Bytes.ofUInt64 element := by
  rw [entry_eq_entryOf made, reference, entryOf]
  cases index.unique <;> rfl

end IndexDescriptor

/-! ### Rows -/

namespace IndexRepair

/-- What the building of an index takes the row of a key for. -/
structure TellsRow {σ : Type} (context : IndexJobContext σ) (extract : Extractor) (name : String)
    (key : Bytes) : Prop where
  passes : ∀ worker state, (job context extract name).filter worker state key = true ↔
    ∃ element, Bytes.ofUInt64 element <+: key ∧ (context.schema state).isReserved element = false
  works : ∀ index slices element, Bytes.ofUInt64 element <+: key →
    cellsOfRow index extract key slices =
      (extract index element ((slices.lookup Slice.fullRow).getD []) >>=
        cells index element)
  refuses : key.length < 8 → ∀ index slices metered,
    (job context extract name).process (some index) key slices metered =
      (.failed (.corruption (.shortNumber key.length 0)), metered)

theorem tellsRow {σ : Type} (context : IndexJobContext σ) (extract : Extractor) (name : String)
    (key : Bytes) : TellsRow context extract name key where
  passes worker state := by
    simp only [← leadingUInt64_eq_ok]
    unfold job
    dsimp only
    cases leadingUInt64 key with
    | error failure => simp
    | ok element => simp
  works index slices element front := by
    rw [cellsOfRow, leadingUInt64_eq_ok.2 front]
    rfl
  refuses short index slices metered := by
    have refused : cellsOfRow index extract key slices =
        .error (.corruption (.shortNumber key.length 0)) := by
      rw [cellsOfRow, leadingUInt64_of_short short]
      rfl
    show process context extract (some index) key slices metered = _
    rw [process_apply, refused]

namespace Rebuild

variable {σ : Type} {manager : Manager σ}

/-- The rows that a run has taken for those of elements. -/
structure TakesRows (rebuild : Rebuild manager) (before : CachePool × σ)
    (world : ScanWorld (CachePool × σ) (Option IndexDescriptor)) : Prop where
  taken : ∀ key, (∃ call ∈ world.shared.calls, call.key = key) ↔
    Table.slice (rebuild.store.table before) key Slice.fullRow ≠ [] ∧
      ∃ element, Bytes.ofUInt64 element <+: key ∧ rebuild.schema.isReserved element = false
  /-- All of them are rows of elements unless there is a row of a longer key that begins with the
  number of an element that is not reserved. -/
  strict : (∀ call ∈ world.shared.calls, ∃ element, call.key = Bytes.ofUInt64 element) ↔
    ∀ key element, Table.slice (rebuild.store.table before) key Slice.fullRow ≠ [] →
      Bytes.ofUInt64 element <+: key → rebuild.schema.isReserved element = false →
      key.length ≤ 8

theorem Completes.takesRows {rebuild : Rebuild manager} {before : CachePool × σ}
    {world : ScanWorld (CachePool × σ) (Option IndexDescriptor)}
    (completes : rebuild.Completes before world) (isReady : rebuild.store.ready before)
    (countable : rebuild.Countable before) : rebuild.TakesRows before world := by
  have taken : ∀ key, (∃ call ∈ world.shared.calls, call.key = key) ↔
      Table.slice (rebuild.store.table before) key Slice.fullRow ≠ [] ∧
        ∃ element, Bytes.ofUInt64 element <+: key ∧ rebuild.schema.isReserved element = false := by
    intro key
    rw [← (completes.wrote isReady countable).2.called, includes_iff]
    simp only [leadingUInt64_eq_ok]
  refine ⟨taken, ?_, ?_⟩
  · intro whole key element filled front free
    obtain ⟨call, member, rfl⟩ := (taken key).2 ⟨filled, element, front, free⟩
    obtain ⟨number, same⟩ := whole call member
    exact Nat.le_of_eq ((congrArg List.length same).trans (Bytes.length_ofUInt64 number))
  · intro short call member
    obtain ⟨filled, element, front, free⟩ := (taken call.key).1 ⟨call, member, rfl⟩
    have bound := short call.key element filled front free
    rw [← Bytes.length_ofUInt64 element] at bound
    exact ⟨element, (front.eq_of_length_le bound).symm⟩

end Rebuild

end IndexRepair

/-! ### Identifiers -/

open IndexRepair in
/-- Bytes are read as an identifier exactly if they begin with it, so the reading is strict for up
to eight bytes and for no longer ones. A watermark cell is reported as corruption if and only if it
is too short, and otherwise the block starts at the number at its front, in either backend; the
element of an entry is the one at the front of its reference; and a rebuild takes a row for that of
the element at the front of its key. -/
theorem identifiers_exact (authority : IdAuthority) (index : IndexDescriptor) (buffer : Bytes) :
    ReadsLeading buffer (leadingUInt64 buffer) ∧
    (∀ (partitionId namespaceId : UInt32) (timeout : Nat), authority.admits namespaceId = true →
      (∀ memory : Memory, memory.closed = false →
        (memory.stores.table authority.store).watermarkCell partitionId namespaceId = some buffer →
        authority.MeetsCell Memory.manager partitionId namespaceId timeout memory buffer ∧
        ∀ start stop, Bytes.ofUInt64 start <+: buffer →
          IdAuthority.blockEnd? start (authority.sizer.shape namespaceId) = some stop →
          (authority.getIdBlock Memory.manager partitionId namespaceId timeout memory).1 =
            .ok ⟨partitionId, namespaceId, start, stop⟩) ∧
      ∀ embedded : Embedded, embedded.closed = false →
        (embedded.stores.table authority.store).watermarkCell partitionId namespaceId =
          some buffer →
        authority.MeetsCell Embedded.manager partitionId namespaceId timeout embedded buffer) ∧
    (∀ entry : Entry, index.reference entry = buffer →
      ReadsLeading buffer (index.elementOfEntry entry)) ∧
    (∀ (values : List Value) (element : UInt64) (cell : IndexCell),
      index.indexCell values element = .ok cell →
      index.reference cell.entry = Bytes.ofUInt64 element) ∧
    (∀ {σ : Type} (context : IndexJobContext σ) (extract : Extractor) (name : String),
      TellsRow context extract name buffer) ∧
    ∀ {σ : Type} {manager : Manager σ} (rebuild : Rebuild manager) (before : CachePool × σ)
      (world : ScanWorld (CachePool × σ) (Option IndexDescriptor)), rebuild.store.ready before →
      rebuild.Countable before → rebuild.Completes before world →
      rebuild.TakesRows before world := by
  refine ⟨readsLeading buffer, ?cells, ?entries,
    fun values element cell made => IndexDescriptor.reference_of_indexCell made,
    fun context extract name => tellsRow context extract name buffer,
    fun rebuild before world isReady countable completes =>
      completes.takesRows isReady countable⟩
  case cells =>
    intro partitionId namespaceId timeout admitted
    constructor
    · intro memory isOpen held
      exact ⟨Memory.meetsCell admitted isOpen held timeout, fun start stop front fits =>
        Memory.getIdBlock_of_held admitted isOpen held front fits timeout⟩
    · intro embedded isOpen held
      exact Embedded.meetsCell admitted isOpen held timeout
  case entries =>
    rintro entry rfl
    exact readsLeading (index.reference entry)

/-- A watermark that is one byte too short, and one that is one byte too long. -/
def oddWatermarks : Tables :=
  Log.applyAll [⟨"system_ids", IdAuthority.watermarkKey 0 0, [⟨[0], [0, 0, 0, 0, 0, 0, 5]⟩], []⟩,
    ⟨"system_ids", IdAuthority.watermarkKey 0 1, [⟨[0], Bytes.ofUInt64 5 ++ [0]⟩], []⟩] .empty

def oddMemory : Memory := ⟨.ofTables oddWatermarks, false⟩

def oddEmbedded : Embedded :=
  ⟨.ofTables oddWatermarks, .new ⟨[], 0, [], none, true⟩ 0 0 true, false, ⟨0, 0, 0⟩, none⟩

def tensAuthority : IdAuthority := ⟨⟨"system_ids", 0⟩, .uniform 10 100, .standard, false⟩

/-- An element and a row with a longer key, both of a color. -/
def oddRows : CachePool × Memory :=
  (.empty 4, ⟨.ofTables (Log.applyAll [
      ⟨"edgestore", Bytes.ofUInt64 1, [⟨[1], [5]⟩], []⟩,
      ⟨"edgestore", Bytes.ofUInt64 2 ++ [0], [⟨[1], [5]⟩], []⟩] .empty), false⟩)

open IndexRepair in
/-- The short watermark is reported and a block is granted behind the long one, a longer column
refers to the element at its front, and a rebuild takes the row with the longer key for that of an
element. -/
theorem identifiers_exact_oddBytes :
    tensAuthority.getIdBlock Memory.manager 0 0 20 oddMemory =
        (.error (.corruption (.badWatermark (IdAuthority.watermarkKey 0 0) [0, 0, 0, 0, 0, 0, 5])),
          oddMemory) ∧
      (tensAuthority.getIdBlock Memory.manager 0 1 20 oddMemory).1 = .ok ⟨0, 1, 5, 15⟩ ∧
      (¬ ∃ damage, (tensAuthority.getIdBlock Embedded.manager 0 1 20 oddEmbedded).1 =
        .error (.corruption damage)) ∧
      byColor.elementOfEntry ⟨Bytes.ofUInt64 5 ++ [0], []⟩ = .ok 5 ∧
      byColor.reference ⟨Bytes.ofUInt64 2, []⟩ = Bytes.ofUInt64 2 ∧
      ∃ world, colorRebuild.Completes oddRows world ∧
        (∃ call ∈ world.shared.calls, call.key = Bytes.ofUInt64 2 ++ [0]) ∧
        ¬ ∀ call ∈ world.shared.calls, ∃ element, call.key = Bytes.ofUInt64 element := by
  have isReady : colorRebuild.store.ready oddRows := ⟨rfl, rfl, CachePool.refers_empty 4⟩
  have countable : colorRebuild.Countable oddRows := by
    show _ < Word.count 64
    decide +kernel
  obtain ⟨world, runs, ran⟩ := colorRebuild.exists_runs isReady countable id
  have completed : (colorRebuild.scanner.scan colorRebuild.job id .full .empty .empty
      oddRows).1.toOption.map ScanReport.state = some .completed := by
    decide +kernel
  rw [show colorRebuild.scanner.scan colorRebuild.job id .full .empty .empty oddRows = _
    from ran] at completed
  have completes : colorRebuild.Completes oddRows world := ⟨runs, Option.some.inj completed⟩
  obtain ⟨_, cells, entries, written, _, rows⟩ :=
    identifiers_exact tensAuthority byColor (Bytes.ofUInt64 5 ++ [0])
  have shortCells := (identifiers_exact tensAuthority byColor [0, 0, 0, 0, 0, 0, 5]).2.1
  have takes := rows colorRebuild oddRows world isReady countable completes
  have filled : Table.slice (colorRebuild.store.table oddRows) (Bytes.ofUInt64 2 ++ [0])
      Slice.fullRow ≠ [] := by
    decide +kernel
  have front : Bytes.ofUInt64 2 <+: Bytes.ofUInt64 2 ++ [0] := List.prefix_append _ _
  have made : byColor.indexCell [.bytes [5]] 2 = .ok ⟨colorKey, ⟨Bytes.ofUInt64 2, []⟩⟩ := rfl
  have reported := ((shortCells 0 0 20 rfl).1 oddMemory rfl (by decide +kernel)).1
  have granted := ((cells 0 1 20 rfl).1 oddMemory rfl (by decide +kernel)).2
  have logged := (cells 0 1 20 rfl).2 oddEmbedded rfl (by decide +kernel)
  refine ⟨reported.short (by decide), granted 5 15 (List.prefix_append _ _) (by decide),
    fun corrupted => ?_, ((entries ⟨Bytes.ofUInt64 5 ++ [0], []⟩ rfl).found 5).2
      (List.prefix_append _ _), written _ 2 _ made, world, completes, ?_, ?_⟩
  · exact absurd (logged.corrupted.1 corrupted) (by decide)
  · exact (takes.taken _).2 ⟨filled, 2, front, rfl⟩
  · intro whole
    exact absurd (takes.strict.1 whole _ 2 filled front rfl) (by decide)

open IndexRepair in
/-- Nine bytes are read as the number at their front, although no number is written so: a block is
granted behind such a watermark, such a column refers to an element, and a completed rebuild records
an element that has no row. -/
theorem leadingUInt64_accepts_longer :
    (¬ ∀ (buffer : Bytes) (number : UInt64),
      leadingUInt64 buffer = .ok number ↔ buffer = Bytes.ofUInt64 number) ∧
    (tensAuthority.getIdBlock Memory.manager 0 1 20 oddMemory).1 = .ok ⟨0, 1, 5, 15⟩ ∧
    byColor.elementOfEntry ⟨Bytes.ofUInt64 2 ++ [0], []⟩ = .ok 2 ∧
    Table.row (colorRebuild.store.table oddRows) (Bytes.ofUInt64 2) = .empty ∧
    let scanned := colorRebuild.scanner.scan colorRebuild.job id .full .empty .empty oddRows
    scanned.1.toOption.map ScanReport.state = some .completed ∧
      colorRebuild.recorded scanned.2 colorKey (Bytes.ofUInt64 2) = some [] := by
  refine ⟨?_, by decide +kernel, by decide +kernel, by decide +kernel, by decide +kernel,
    by decide +kernel⟩
  intro strict
  have read : leadingUInt64 (Bytes.ofUInt64 5 ++ [0]) = .ok 5 := by decide +kernel
  exact absurd ((strict _ 5).1 read) (by decide)

end GraphStore
