import GraphStore.Proofs.Rows
import Mathlib.Data.List.Nodup

/-!
Contract: the cells of a table.

Owns the list of all cells, each of them once (`Table.cells`), the cells that a later table has lost
(`Table.lost`), and the columns that an uncapped slice shows of a row.
-/

namespace GraphStore

namespace OrderedMap

variable {κ ν : Type} [LT κ] [LE κ] [Std.LawfulOrderLT κ]

theorem nodup_keys (map : OrderedMap κ ν) : map.keys.Nodup := by
  have ascending : map.keys.Pairwise (· < ·) := List.pairwise_map.2 map.ascending
  apply ascending.imp
  intro left right less same
  rw [same] at less
  exact Std.lt_irrefl less

end OrderedMap

namespace Table

def cells (table : Table) : List (Bytes × Bytes) :=
  table.entries.flatMap fun row => row.2.keys.map fun column => (row.1, column)

/-- The cells are the places that hold a value. -/
theorem mem_cells {table : Table} {key column : Bytes} :
    (key, column) ∈ table.cells ↔ (Table.cell? table key column).isSome = true := by
  unfold cells Table.cell? Table.row OrderedMap.findD
  show _ ↔ ((table.find? key).getD .empty).contains column = true
  rw [← OrderedMap.mem_keys, List.mem_flatMap]
  constructor
  · intro listed
    obtain ⟨row, member, own⟩ := listed
    obtain ⟨shown, inRow, same⟩ := List.mem_map.1 own
    obtain ⟨rfl, rfl⟩ := Prod.mk.inj same
    rw [OrderedMap.find?_eq_some_iff.2 member]
    exact inRow
  · intro inRow
    cases found : table.find? key with
    | none =>
        rw [found] at inRow
        exact nomatch inRow
    | some row =>
        rw [found] at inRow
        refine ⟨(key, row), OrderedMap.find?_eq_some_iff.1 found, ?_⟩
        exact List.mem_map_of_mem inRow

/-- No cell is listed twice. -/
theorem nodup_cells (table : Table) : table.cells.Nodup := by
  unfold cells
  rw [List.nodup_flatMap]
  constructor
  · intro row _
    apply row.2.nodup_keys.map
    intro left right same
    exact (Prod.mk.inj same).2
  · apply table.ascending.imp
    intro left right less cell inLeft inRight
    obtain ⟨_, _, rfl⟩ := List.mem_map.1 inLeft
    obtain ⟨_, _, same⟩ := List.mem_map.1 inRight
    rw [(Prod.mk.inj same).1] at less
    exact Std.lt_irrefl less

/-- The cells that the later table does not have any more. -/
def lost (before after : Table) : List (Bytes × Bytes) :=
  before.cells.filter fun cell => (Table.cell? after cell.1 cell.2).isNone

/-- A cell is lost if it held a value and holds none any more. -/
theorem mem_lost {before after : Table} {key column : Bytes} :
    (key, column) ∈ Table.lost before after ↔
      (Table.cell? before key column).isSome = true ∧ Table.cell? after key column = none := by
  rw [lost, List.mem_filter, mem_cells, Option.isNone_iff_eq_none]

theorem nodup_lost (before after : Table) : (Table.lost before after).Nodup :=
  before.nodup_cells.filter _

/-! ### Columns of a slice -/

section Columns

variable (table : Table) (key : Bytes) {slice : Slice} (uncapped : slice.limit = none)
include uncapped

theorem columns_slice : (Table.slice table key slice).map Entry.column =
    ((Table.row table key).filter fun column _ => slice.contains column).keys := by
  unfold Table.slice Row.slice Slice.cap Row.toEntries
  rw [uncapped]
  simp [OrderedMap.keys]

/-- A slice shows the columns within it that hold a value. -/
theorem mem_columns_slice {column : Bytes} :
    column ∈ (Table.slice table key slice).map Entry.column ↔
      slice.contains column = true ∧ (Table.cell? table key column).isSome = true := by
  rw [columns_slice table key uncapped, OrderedMap.mem_keys, OrderedMap.contains,
    OrderedMap.find?_filter]
  unfold Table.cell?
  split <;> simp_all

theorem nodup_columns_slice : ((Table.slice table key slice).map Entry.column).Nodup := by
  rw [columns_slice table key uncapped]
  exact OrderedMap.nodup_keys _

theorem ascending_slice : (Table.slice table key slice).Pairwise fun left right =>
    left.column < right.column := by
  rw [← List.pairwise_map, columns_slice table key uncapped]
  exact List.pairwise_map.2 (OrderedMap.ascending _)

/-- An uncapped slice shows the cells of the row whose columns lie in it. -/
theorem mem_slice {entry : Entry} : entry ∈ Table.slice table key slice ↔
    slice.contains entry.column = true ∧
      Table.cell? table key entry.column = some entry.value := by
  have shown : entry ∈ Table.slice table key slice ↔ (entry.column, entry.value) ∈
      ((Table.row table key).filter fun column _ => slice.contains column).entries := by
    rw [Table.slice, Row.slice, Slice.cap, uncapped, Row.toEntries, List.mem_map]
    constructor
    · rintro ⟨cell, member, rfl⟩
      exact member
    · intro member
      exact ⟨_, member, rfl⟩
  rw [shown, ← OrderedMap.find?_eq_some_iff, OrderedMap.find?_filter, Table.cell?]
  split <;> simp_all

end Columns

end Table

end GraphStore
