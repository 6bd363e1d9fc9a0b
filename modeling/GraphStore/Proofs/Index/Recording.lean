import GraphStore.Proofs.Index.Ownership
import GraphStore.Proofs.Results
import GraphStore.Scan.Repair

/-!
Contract: index cells that are written on top of a table.

Owns the cells that are found behind such writes (`IndexCell.overlay`): at each place the last one
that was written there, or what the table held. It also owns what a rebuild calls for
(`IndexDescriptor.CallsFor`): the cells of all elements that are not reserved, under each
combination of values that is extracted from their rows.
-/

namespace GraphStore

/-! ### Cells on top of a table -/

namespace IndexCell

def change (store : String) (cell : IndexCell) : RowChange := ⟨store, cell.key, [cell.entry], []⟩

def isAt (key column : Bytes) (cell : IndexCell) : Bool :=
  cell.key = key && cell.entry.column = column

theorem isAt_iff {key column : Bytes} {cell : IndexCell} :
    cell.isAt key column = true ↔ cell.key = key ∧ cell.entry.column = column := by
  simp [isAt]

/-- The cells that are held, with further ones written on top in their order. -/
def overlay (held : Bytes → Bytes → Option Bytes) (cells : List IndexCell)
    (key column : Bytes) : Option Bytes :=
  ((cells.filter (isAt key column)).getLast?.map fun cell => cell.entry.value).or
    (held key column)

variable {held : Bytes → Bytes → Option Bytes} {key column : Bytes} {cells : List IndexCell}

/-- Cells written one behind the other lie over each other in that order. -/
theorem overlay_append (front back : List IndexCell) :
    overlay held (front ++ back) = overlay (overlay held front) back := by
  funext key column
  unfold overlay
  rw [List.filter_append, List.getLast?_append]
  cases (back.filter (isAt key column)).getLast? <;> rfl

theorem overlay_of_absent (absent : ∀ cell ∈ cells, ¬ cell.isAt key column = true) :
    overlay held cells key column = held key column := by
  rw [overlay, List.filter_eq_nil_iff.2 absent]
  rfl

/-- Where all cells written at a place agree, that is what is found. -/
theorem overlay_of_agree {value : Bytes} (present : ∃ cell ∈ cells, cell.isAt key column = true)
    (agree : ∀ cell ∈ cells, cell.isAt key column = true → cell.entry.value = value) :
    overlay held cells key column = some value := by
  obtain ⟨cell, member, placed⟩ := present
  have filled : cells.filter (isAt key column) ≠ [] :=
    List.ne_nil_of_mem (List.mem_filter.2 ⟨member, placed⟩)
  obtain ⟨last, listed, isLast⟩ : ∃ last ∈ cells.filter (isAt key column),
      (cells.filter (isAt key column)).getLast? = some last :=
    ⟨_, List.getLast_mem filled, List.getLast?_eq_some_getLast filled⟩
  obtain ⟨inCells, atPlace⟩ := List.mem_filter.1 listed
  rw [overlay, isLast, Option.map_some, Option.some_or, agree last inCells atPlace]

/-- What was not held has been written. -/
theorem exists_of_overlay {value : Bytes} (absent : held key column = none)
    (found : overlay held cells key column = some value) :
    ∃ cell ∈ cells, cell.isAt key column = true ∧ cell.entry.value = value := by
  rw [overlay, absent, Option.or_none] at found
  obtain ⟨cell, last, same⟩ := Option.map_eq_some_iff.1 found
  obtain ⟨member, placed⟩ := List.mem_filter.1 (List.mem_of_getLast? last)
  exact ⟨cell, member, placed, same⟩

def write (table : Table) (cell : IndexCell) : Table :=
  Table.change table cell.key [cell.entry] []

theorem cell?_write (table : Table) (cell : IndexCell) :
    Table.cell? (write table cell) = overlay (Table.cell? table) [cell] := by
  funext key column
  rw [write, Table.cell?_change, overlay, List.filter_singleton]
  by_cases placed : key = cell.key ∧ column = cell.entry.column
  · rw [if_pos placed, (isAt_iff.2 ⟨placed.1.symm, placed.2.symm⟩ : cell.isAt key column = _)]
    rfl
  · have elsewhere : cell.isAt key column = false := by
      apply Bool.eq_false_iff.2
      intro found
      exact placed ⟨(isAt_iff.1 found).1.symm, (isAt_iff.1 found).2.symm⟩
    rw [if_neg placed, elsewhere]
    rfl

/-- Cells that are written to a table one after another lie on top of what it held. -/
theorem cell?_foldl_write (cells : List IndexCell) (table : Table) :
    Table.cell? (cells.foldl write table) = overlay (Table.cell? table) cells := by
  induction cells generalizing table with
  | nil => rfl
  | cons cell cells inductionHypothesis =>
      rw [List.foldl_cons, inductionHypothesis, cell?_write]
      exact (overlay_append [cell] cells).symm

theorem table_applyAll_change (store : String) (cells : List IndexCell) (tables : Tables) :
    Tables.table (Log.applyAll (cells.map (change store)) tables) store =
      cells.foldl write (Tables.table tables store) := by
  induction cells generalizing tables with
  | nil => rfl
  | cons cell cells inductionHypothesis =>
      have written : Tables.table ((change store cell).apply tables) store =
          write (Tables.table tables store) cell :=
        (Tables.table_change tables store store cell.key [cell.entry] []).trans (if_pos rfl)
      rw [List.foldl_cons, ← written]
      exact inductionHypothesis ((change store cell).apply tables)

/-- Cells that are written to a store one after another lie on top of what it held. -/
theorem cell?_applyAll (store : String) (cells : List IndexCell) (tables : Tables) :
    Table.cell? (Tables.table (Log.applyAll (cells.map (change store)) tables) store) =
      overlay (Table.cell? (Tables.table tables store)) cells := by
  rw [table_applyAll_change, cell?_foldl_write]

end IndexCell

/-! ### What a rebuild calls for -/

/-- The table holds rows of elements: their keys are numbers of eight bytes, and each of them shows
something in the slice that stands for a whole row. -/
def Table.HoldsElements (table : Table) : Prop :=
  ∀ key, Table.row table key ≠ .empty →
    key.length = 8 ∧ Table.slice table key Slice.fullRow ≠ []

theorem Table.row_of_slice {table : Table} {key : Bytes}
    (filled : Table.slice table key Slice.fullRow ≠ []) : Table.row table key ≠ .empty := by
  intro absent
  rw [Table.slice, absent] at filled
  exact filled rfl

theorem Table.mem_keys_of_row {table : Table} {key : Bytes}
    (present : Table.row table key ≠ .empty) : key ∈ table.keys := by
  apply OrderedMap.mem_keys.2
  apply Option.isSome_iff_ne_none.2
  intro absent
  exact present (Table.row_eq_empty absent)

/-- A row that shows something is that of an element, and its key is the number of the element. -/
theorem Table.HoldsElements.of_slice {table : Table} (holds : table.HoldsElements) {key : Bytes}
    {element : UInt64} (filled : Table.slice table key Slice.fullRow ≠ [])
    (leads : Encoding.leadingUInt64 key = .ok element) :
    Table.row table key ≠ .empty ∧ key = Bytes.ofUInt64 element := by
  have present := Table.row_of_slice filled
  have eight := (holds key present).1
  rw [Encoding.leadingUInt64_of_long (by omega)] at leads
  have front := (Encoding.ofNat_toNat_take (by omega)).1 (Except.ok.inj leads)
  rw [List.take_of_length_le (by omega)] at front
  exact ⟨present, front⟩

theorem Table.holdsElements_of_entries {table : Table}
    (entries : ∀ entry ∈ table.entries,
      entry.1.length = 8 ∧ Row.slice entry.2 Slice.fullRow ≠ []) : table.HoldsElements := by
  intro key present
  cases found : table.find? key with
  | none => exact absurd (Table.row_eq_empty found) present
  | some row =>
      have shown : Table.row table key = row := by
        rw [Table.row, OrderedMap.findD, found]
        rfl
      rw [Table.slice, shown]
      exact entries (key, row) (OrderedMap.find?_eq_some_iff.1 found)

namespace IndexDescriptor

/-- The row of a key has an element that is not reserved, and the combination of values is extracted
from it. -/
def Extracts (index : IndexDescriptor) (schema : Schema) (extract : Extractor) (rows : Table)
    (key : Bytes) (element : UInt64) (values : List Value) : Prop :=
  Table.slice rows key Slice.fullRow ≠ [] ∧ Encoding.leadingUInt64 key = .ok element ∧
    schema.isReserved element = false ∧
    ∃ combinations, extract index element (Table.slice rows key Slice.fullRow) = .ok combinations ∧
      values ∈ combinations

/-- The cell is that of an element with a row, which is not reserved, under a combination of values
that is extracted from the row. -/
def CallsFor (index : IndexDescriptor) (schema : Schema) (extract : Extractor) (elements : Table)
    (cell : IndexCell) : Prop :=
  ∃ element combinations values,
    Table.row elements (Bytes.ofUInt64 element) ≠ .empty ∧ schema.isReserved element = false ∧
    extract index element (Table.slice elements (Bytes.ofUInt64 element) Slice.fullRow) =
      .ok combinations ∧
    values ∈ combinations ∧ index.indexCell values element = .ok cell

/-- A cell is called for just if the rows of elements have it extracted. -/
theorem callsFor_iff {index : IndexDescriptor} {schema : Schema} {extract : Extractor}
    {elements : Table} (holds : elements.HoldsElements) {cell : IndexCell} :
    index.CallsFor schema extract elements cell ↔ ∃ key element values,
      index.Extracts schema extract elements key element values ∧
        index.indexCell values element = .ok cell := by
  constructor
  · intro called
    obtain ⟨element, combinations, values, present, free, extracted, member, made⟩ := called
    exact ⟨Bytes.ofUInt64 element, element, values, ⟨(holds _ present).2,
      Encoding.leadingUInt64_ofUInt64 element, free, combinations, extracted, member⟩, made⟩
  · intro called
    obtain ⟨key, element, values, ⟨filled, leads, free, combinations, extracted, member⟩, made⟩ :=
      called
    obtain ⟨present, rfl⟩ := holds.of_slice filled leads
    exact ⟨element, combinations, values, present, free, extracted, member, made⟩

/-- The extractor succeeds on every element that is not reserved, with values that fit the fields of
the index. -/
def Extractable (index : IndexDescriptor) (schema : Schema) (extract : Extractor)
    (elements : Table) : Prop :=
  ∀ element, Table.row elements (Bytes.ofUInt64 element) ≠ .empty →
    schema.isReserved element = false →
    ∃ combinations, extract index element
        (Table.slice elements (Bytes.ofUInt64 element) Slice.fullRow) = .ok combinations ∧
      ∀ values ∈ combinations, ∃ cell, index.indexCell values element = .ok cell

/-- The cells that are called for hold their values, and every other cell is as it was. -/
structure Rebuilt (index : IndexDescriptor) (schema : Schema) (extract : Extractor)
    (elements : Table) (before after : Bytes → Bytes → Option Bytes) : Prop where
  recorded : ∀ cell, index.CallsFor schema extract elements cell →
    after cell.key cell.entry.column = some cell.entry.value
  others : ∀ key column, (∀ cell, index.CallsFor schema extract elements cell →
    ¬ cell.isAt key column = true) → after key column = before key column

section Rebuilt

variable {index : IndexDescriptor} {schema : Schema} {extract : Extractor} {elements : Table}
  {before after other : Bytes → Bytes → Option Bytes}

/-- What a rebuild calls for determines the cells behind it. -/
theorem Rebuilt.eq (left : index.Rebuilt schema extract elements before after)
    (right : index.Rebuilt schema extract elements before other) : other = after := by
  funext key column
  by_cases called : ∃ cell, index.CallsFor schema extract elements cell ∧
      cell.isAt key column = true
  · obtain ⟨cell, calls, placed⟩ := called
    obtain ⟨rfl, rfl⟩ := IndexCell.isAt_iff.1 placed
    rw [left.recorded cell calls, right.recorded cell calls]
  · have absent : ∀ cell, index.CallsFor schema extract elements cell →
        ¬ cell.isAt key column = true := fun cell calls placed => called ⟨cell, calls, placed⟩
    rw [left.others key column absent, right.others key column absent]

/-- Rebuilding what has been rebuilt changes nothing. -/
theorem Rebuilt.again (first : index.Rebuilt schema extract elements before after)
    (second : index.Rebuilt schema extract elements after other) : other = after := by
  have still : index.Rebuilt schema extract elements after after :=
    ⟨first.recorded, fun _ _ _ => rfl⟩
  exact still.eq second

end Rebuilt

/-! ### What cells record -/

section Cells

variable {index : IndexDescriptor} {values : List Value} {element : UInt64} {cell : IndexCell}

theorem lookup_of_indexCell (made : index.indexCell values element = .ok cell) :
    index.lookup values = .ok (cell.key, Slice.fullRow) := by
  unfold indexCell at made
  obtain ⟨key, keyed, made⟩ := Result.bind_eq_ok.1 made
  obtain rfl := Except.ok.inj made
  exact Result.bind_eq_ok.2 ⟨key, keyed, rfl⟩

def entryOf (index : IndexDescriptor) (element : UInt64) : Entry :=
  if index.unique then ⟨uniqueColumn, Bytes.ofUInt64 element⟩ else ⟨Bytes.ofUInt64 element, []⟩

theorem entry_eq_entryOf (made : index.indexCell values element = .ok cell) :
    cell.entry = index.entryOf element := by
  unfold indexCell at made
  obtain ⟨key, -, made⟩ := Result.bind_eq_ok.1 made
  obtain rfl := Except.ok.inj made
  rfl

/-- The element is read back from the entry that records it. -/
theorem elementOfEntry_entryOf (index : IndexDescriptor) (element : UInt64) :
    index.elementOfEntry (index.entryOf element) = .ok element := by
  rw [elementOfEntry, entryOf]
  split <;> exact Encoding.leadingUInt64_ofUInt64 element

/-- A unique index records the element in its one column. -/
theorem entryOf_of_unique (unique : index.unique = true) (element : UInt64) :
    index.entryOf element = ⟨uniqueColumn, Bytes.ofUInt64 element⟩ := by
  rw [entryOf, unique, if_pos rfl]

/-- An index that is not unique records nothing but the element, and that in the column. -/
theorem entryOf_of_shared (shared : index.unique = false) (element : UInt64) :
    index.entryOf element = ⟨Bytes.ofUInt64 element, []⟩ := by
  rw [entryOf, shared, if_neg Bool.false_ne_true]

end Cells

end IndexDescriptor

end GraphStore
