import GraphStore.Proofs.Manager.Refinement
import GraphStore.Proofs.Slice.Readers

/-!
Contract: reads of the columns with a common stem.

Owns an uncapped slice of a row as a selection from all of its entries (`Row.slice_of_uncapped`),
and what a read of a stem answers (`Slice.ReadsStem`): the entries in column order whose columns
begin with the stem and do not outgrow it. Only stems without a byte below `FF` can be outgrown, and
the empty one is among them. Both backends answer so through every handle (`Slice.stems_exact`).
-/

namespace GraphStore

open Bytes

/-- An uncapped slice shows the entries whose columns lie in it. -/
theorem Row.slice_of_uncapped (row : Row) {slice : Slice} (uncapped : slice.limit = none) :
    Row.slice row slice = (Row.toEntries row).filter fun entry => slice.contains entry.column := by
  rw [Row.slice_eq, Slice.cap, uncapped]

namespace Bytes.Outgrows

variable {column stem : Bytes}

/-- What outgrows a stem begins with it. -/
theorem isPrefix (outgrown : column.Outgrows stem) : stem <+: column := by
  have whole : stem = ones stem.length :=
    nextPrefix_eq_none.1 (nextPrefix_eq_none_iff_forall.2 outgrown.1)
  have longer : ones stem.length <+: ones (stem.length + 128) := by
    rw [ones, ones, ← List.replicate_append_replicate]
    exact List.prefix_append _ _
  rw [← whole] at longer
  exact longer.trans outgrown.2

/-- A stem is outgrown by some column unless it has a byte below `FF`. -/
theorem exists_iff : (∃ column : Bytes, column.Outgrows stem) ↔ ∀ byte ∈ stem, byte = 255 := by
  constructor
  · intro outgrown
    obtain ⟨column, whole, -⟩ := outgrown
    exact whole
  · intro whole
    exact ⟨ones (stem.length + 128), whole, List.prefix_refl _⟩

end Bytes.Outgrows

namespace Slice

variable {stem : Bytes}

/-- The slice of a stem is exact for the stems that no column outgrows. -/
theorem contains_ofPrefix_exact_iff :
    (∀ column, (ofPrefix stem).contains column = true ↔ stem <+: column) ↔
      ∃ byte ∈ stem, byte ≠ 255 := by
  have reach : (∃ byte ∈ stem, byte ≠ 255) ↔ ∀ column : Bytes, ¬ column.Outgrows stem := by
    rw [← not_exists, Outgrows.exists_iff]
    simp
  rw [reach]
  constructor
  · intro selects column outgrown
    have within := (selects column).2 outgrown.isPrefix
    exact (contains_ofPrefix.1 within).2 outgrown
  · intro reached column
    rw [contains_ofPrefix]
    exact and_iff_left (reached column)

structure ReadsStem (stem : Bytes) (row : Row) (entries : List Entry) : Prop where
  shown : entries = (Row.toEntries row).filter fun entry =>
    stem <+: entry.column ∧ ¬ entry.column.Outgrows stem
  /-- No column that begins with the stem is missing, unless the row has one that outgrows it. -/
  whole_iff : entries = (Row.toEntries row).filter (fun entry => stem <+: entry.column) ↔
    ∀ entry ∈ Row.toEntries row, ¬ entry.column.Outgrows stem

theorem readsStem (stem : Bytes) (row : Row) :
    ReadsStem stem row (Row.slice row (ofPrefix stem)) := by
  have shown : Row.slice row (ofPrefix stem) = (Row.toEntries row).filter fun entry =>
      stem <+: entry.column ∧ ¬ entry.column.Outgrows stem := by
    rw [Row.slice_of_uncapped row rfl]
    apply List.filter_congr
    intro entry _
    rw [Bool.eq_iff_iff, contains_ofPrefix, decide_eq_true_iff]
  refine ⟨shown, ?_⟩
  rw [shown]
  constructor
  · intro same entry member outgrown
    have begins : entry ∈ (Row.toEntries row).filter fun entry => stem <+: entry.column :=
      List.mem_filter.2 ⟨member, decide_eq_true outgrown.isPrefix⟩
    rw [← same, List.mem_filter, decide_eq_true_iff] at begins
    exact begins.2.2 outgrown
  · intro reached
    apply List.filter_congr
    intro entry member
    simp [reached entry member]

end Slice

/-! ### Backends -/

namespace Slice

/-- The slice of a stem holds the columns that begin with it but for those that outgrow it. So it is
exact if and only if the stem has a byte below `FF`, and a read of a row through any handle answers
all entries with the stem, in column order, if and only if none of its columns outgrows the stem. -/
theorem stems_exact (stem : Bytes) :
    (∀ column, (ofPrefix stem).contains column = true ↔
      stem <+: column ∧ ¬ column.Outgrows stem) ∧
    ((∀ column, (ofPrefix stem).contains column = true ↔ stem <+: column) ↔
      ∃ byte ∈ stem, byte ≠ 255) ∧
    (∀ (memory : Memory) (store : StoreRef) (key : Bytes), memory.closed = false →
      ∃ entries, Memory.getSlice store key (ofPrefix stem) memory = (.ok entries, memory) ∧
        ReadsStem stem (Table.row (memory.stores.table store) key) entries) ∧
    ∀ (embedded : Embedded) (store : StoreRef) (key : Bytes), embedded.closed = false →
      ∃ entries, Embedded.getSlice store key (ofPrefix stem) embedded = (.ok entries, embedded) ∧
        ReadsStem stem (Table.row (embedded.stores.table store) key) entries := by
  refine ⟨fun column => contains_ofPrefix, contains_ofPrefix_exact_iff, ?_, ?_⟩
  · intro memory store key isOpen
    exact ⟨_, Memory.guarded.getSlice_of_handle isOpen store key _, readsStem stem _⟩
  · intro embedded store key isOpen
    exact ⟨_, Embedded.guarded.getSlice_of_handle isOpen store key _, readsStem stem _⟩

/-- A row on both sides of the stem `FF`, with one column that outgrows it. -/
def stemRow : Memory :=
  ⟨.ofTables (.ofList [("s", .ofList [([1], .ofList
    [([], [1]), ([254, 255], [2]), ([255], [3]), ([255, 0], [4]), (ones 129, [5])])])]), false⟩

theorem stems_exact_ones :
    stemRow.closed = false ∧
      Memory.getSlice ⟨"s", 0⟩ [1] (ofPrefix [254]) stemRow = (.ok [⟨[254, 255], [2]⟩], stemRow) ∧
      Memory.getSlice ⟨"s", 0⟩ [1] (ofPrefix [255]) stemRow =
        (.ok [⟨[255], [3]⟩, ⟨[255, 0], [4]⟩], stemRow) := by
  have isOpen : stemRow.closed = false := rfl
  have ofByte (stem : Bytes) (answer : List Entry)
      (listed : ((Row.toEntries (Table.row (stemRow.stores.table ⟨"s", 0⟩) [1])).filter fun entry =>
        stem <+: entry.column ∧ ¬ entry.column.Outgrows stem) = answer) :
      Memory.getSlice ⟨"s", 0⟩ [1] (ofPrefix stem) stemRow = (.ok answer, stemRow) := by
    obtain ⟨entries, answered, reads⟩ := (stems_exact stem).2.2.1 stemRow ⟨"s", 0⟩ [1] isOpen
    rw [answered, reads.shown, listed]
  exact ⟨isOpen, ofByte [254] _ (by decide +kernel), ofByte [255] _ (by decide +kernel)⟩

/-- The slice of the empty stem leaves out the string of 128 bytes `FF`. -/
theorem ofPrefix_omits_ones :
    ¬ ∀ stem column : Bytes, (ofPrefix stem).contains column = true ↔ stem <+: column := by
  intro selects
  have within := (selects [] (ones 128)).2 List.nil_prefix
  exact absurd within (by decide +kernel)

end Slice

end GraphStore
