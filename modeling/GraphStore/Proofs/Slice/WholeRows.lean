import GraphStore.Proofs.Cells
import GraphStore.Proofs.Manager.LiveCells
import GraphStore.Proofs.Scan.Undisturbed
import GraphStore.Proofs.Slice.Bounds

/-!
Contract: reads and lists of whole rows.

Owns the columns that the slice for whole rows reaches (`Bytes.Shown`), what a read with it answers
for a row of live cells (`ShowsRow`), and what a walk over all keys yields with it (`ListsRows`).
All columns shorter than 128 bytes are reached but the empty one: the cell of that column is missing
from its row, and a row without another cell is missing from the walk. Behind any run of row
changes, acknowledged or not, both backends answer so (`whole_rows_exact`).
-/

namespace GraphStore

open Bytes

/-- The column is one of those that the slice for whole rows reaches. -/
def Bytes.Shown (column : Bytes) : Prop := column ≠ [] ∧ ¬ ones 128 <+: column

theorem Bytes.shown_of_short {column : Bytes} (filled : column ≠ [])
    (short : column.length < 128) : column.Shown :=
  ⟨filled, (lt_ones_iff 128).1 (lt_ones_of_length short)⟩

/-! ### Rows -/

def ShortColumns (live : Bytes → Option Bytes) : Prop :=
  ∀ column, live column ≠ none → column.length < 128

/-- The entries are all cells of a row, each of them once. -/
def AllCells (live : Bytes → Option Bytes) (entries : List Entry) : Prop :=
  ∀ entry, entry ∈ entries ↔ live entry.column = some entry.value

structure ShowsRow (live : Bytes → Option Bytes) (entries : List Entry) : Prop where
  ascending : entries.Pairwise fun left right => left.column < right.column
  mem_iff : ∀ entry, entry ∈ entries ↔
    live entry.column = some entry.value ∧ entry.column.Shown
  /-- Of a row of short columns nothing is missing, unless it has a cell of the empty column. -/
  whole_iff : ShortColumns live → (AllCells live entries ↔ live [] = none)

/-- What a walk over the keys of all rows yields, with the entries of each whole row. -/
structure ListsRows (live : Bytes → Bytes → Option Bytes) (rows : List KeyedRow) : Prop where
  ascending : rows.Pairwise fun left right => left.key < right.key
  shown : ∀ row ∈ rows, row.entries ≠ [] ∧ ShowsRow (live row.key) row.entries
  listed_iff : ∀ key, (∃ row ∈ rows, row.key = key) ↔
    ∃ column, live key column ≠ none ∧ column.Shown
  /-- A row of short columns that has a cell is listed as a whole, unless it has a cell of the empty
  column. -/
  whole_iff : ∀ key, ShortColumns (live key) → (∃ column, live key column ≠ none) →
    ((∃ row ∈ rows, row.key = key ∧ AllCells (live key) row.entries) ↔ live key [] = none)

section Rows

variable {table : Table} {live : Bytes → Bytes → Option Bytes}
  (held : ∀ key column, Table.cell? table key column = live key column)
include held

theorem showsRow_slice (key : Bytes) : ShowsRow (live key) (Table.slice table key .fullRow) := by
  have listed : ∀ entry, entry ∈ Table.slice table key .fullRow ↔
      live key entry.column = some entry.value ∧ entry.column.Shown := by
    intro entry
    rw [Table.mem_slice table key rfl, Slice.contains_fullRow, held, and_comm]
    rfl
  refine ⟨Table.ascending_slice table key rfl, listed, fun short => ?_⟩
  constructor
  · intro whole
    apply Option.eq_none_iff_forall_ne_some.2
    intro value found
    have entry := (listed ⟨[], value⟩).1 ((whole ⟨[], value⟩).2 found)
    exact entry.2.1 rfl
  · intro absent entry
    rw [listed entry]
    apply and_iff_left_of_imp
    intro found
    have filled : entry.column ≠ [] := by
      intro empty
      rw [empty, absent] at found
      exact nomatch found
    exact shown_of_short filled (short entry.column (by simp [found]))

/-- A row shows no entry if none of its live cells is reached. -/
theorem slice_ne_nil_iff (key : Bytes) : Table.slice table key .fullRow ≠ [] ↔
    ∃ column, live key column ≠ none ∧ column.Shown := by
  have shows := showsRow_slice held key
  constructor
  · intro filled
    obtain ⟨entry, member⟩ := List.exists_mem_of_ne_nil _ filled
    obtain ⟨found, reached⟩ := (shows.mem_iff entry).1 member
    exact ⟨entry.column, by simp [found], reached⟩
  · intro reached
    obtain ⟨column, found, shown⟩ := reached
    obtain ⟨value, same⟩ := Option.ne_none_iff_exists'.1 found
    exact List.ne_nil_of_mem ((shows.mem_iff ⟨column, value⟩).2 ⟨same, shown⟩)

theorem listsRows_rowsBehind : ListsRows live (table.rowsBehind .full .fullRow none) := by
  have member : ∀ row, row ∈ table.rowsBehind .full .fullRow none ↔
      row.entries = Table.slice table row.key .fullRow ∧ row.entries ≠ [] := by
    intro row
    rw [Table.mem_rowsBehind]
    exact and_iff_right (by simp [Table.inPage, KeyRange.contains, KeyRange.full,
      KeyRange.startingAt, KeyRange.below])
  have shown : ∀ row ∈ table.rowsBehind .full .fullRow none,
      row.entries ≠ [] ∧ ShowsRow (live row.key) row.entries := by
    intro row listed
    obtain ⟨entries, filled⟩ := (member row).1 listed
    rw [entries] at filled ⊢
    exact ⟨filled, showsRow_slice held row.key⟩
  have listed_iff : ∀ key, (∃ row ∈ table.rowsBehind .full .fullRow none, row.key = key) ↔
      ∃ column, live key column ≠ none ∧ column.Shown := by
    intro key
    rw [← slice_ne_nil_iff held]
    constructor
    · intro found
      obtain ⟨row, listed, rfl⟩ := found
      obtain ⟨entries, filled⟩ := (member row).1 listed
      exact entries ▸ filled
    · intro filled
      exact ⟨⟨key, Table.slice table key .fullRow⟩, (member _).2 ⟨rfl, filled⟩, rfl⟩
  refine ⟨Table.ascending_rowsBehind, shown, listed_iff, fun key short cell => ?_⟩
  constructor
  · intro whole
    obtain ⟨row, listed, rfl, all⟩ := whole
    exact ((shown row listed).2.whole_iff short).1 all
  · intro absent
    obtain ⟨column, found⟩ := cell
    have filled : column ≠ [] := by
      rintro rfl
      exact found absent
    have reached : column.Shown := shown_of_short filled (short column found)
    obtain ⟨row, listed, rfl⟩ := (listed_iff key).2 ⟨column, found, reached⟩
    exact ⟨row, listed, rfl, ((shown row listed).2.whole_iff short).2 absent⟩

end Rows

/-! ### Backends -/

/-- Every store of the manager answers for whole rows of live cells. -/
structure AnswersWholeRows {σ : Type} (manager : Manager σ)
    (live : String → Bytes → Bytes → Option Bytes) (state : σ) : Prop where
  reads : ∀ store key, ∃ entries,
    (StoreCall.getSlice store key .fullRow).perform manager state =
      (.ok (.entries entries), state) ∧ ShowsRow (live store key) entries
  lists : ∀ store, ∃ rows, ListsRows (live store) rows ∧
    ∀ limit selector, Selector.all limit = .ok selector →
      (StoreCall.getKeys store .full .fullRow selector).perform manager state =
        (.ok (.rows ((rows.take limit).map .ok)), state)

/-- What a walk over all keys of an open store answers. -/
def ListsTables {σ : Type} (manager : Manager σ) (view : TableView σ) : Prop :=
  ∀ state store limit selector, view.isOpen state = true → Selector.all limit = .ok selector →
    (StoreCall.getKeys store .full .fullRow selector).perform manager state =
      (.ok (.rows (((Table.rowsBehind (Tables.table (view.tables state) store) .full .fullRow
        none).take limit).map .ok)), state)

theorem KeyQuery.firstRows_of_all (store : StoreRef) (limit : Nat) (table : Table) :
    KeyQuery.firstRows ⟨store, .full, .fullRow, fun _ => true, limit⟩ table =
      (table.rowsBehind .full .fullRow none).take limit := by
  rw [firstRows, List.filter_true]

theorem GuardedManager.listsTables {σ : Type} {manager : Manager σ}
    (guarded : GuardedManager manager) : ListsTables manager guarded.tableView := by
  intro state store limit selector opened made
  have isOpen : guarded.closed state = false := Bool.not_eq_true' _ ▸ opened
  let query : KeyQuery :=
    ⟨(guarded.stores state).refer store, .full, .fullRow, fun _ => true, limit⟩
  have selects : Selector.new query.filter query.limit = .ok selector := made
  have walked := guarded.pagedBackend.allKeys_of_open selects isOpen
  rw [KeyQuery.firstRows_of_all, show guarded.pagedBackend.table state query.store =
    (guarded.stores state).table ((guarded.stores state).refer store) from rfl,
    Generations.table_refer] at walked
  exact (Action.bind_of_ok (guarded.openStore_of_open isOpen store)).trans
    (Action.bind_of_ok walked)

/-- Behind a run of row changes a backend answers for the whole rows that these leave. -/
theorem TableBackend.answersWholeRows {σ : Type} {manager : Manager σ}
    (backend : TableBackend manager) (atomic : backend.RowsAtomic)
    (lists : ListsTables manager backend.toTableView) {changes : List RowChange} {state after : σ}
    {replies : List (Result Reply)} (isOpen : backend.isOpen state = true)
    (ran : StoreCall.performAll manager (changes.map RowChange.call) state = (replies, after)) :
    AnswersWholeRows manager
      ((backend.tables state).live? (RowChange.acknowledged changes replies)) after := by
  obtain ⟨stillOpen, tables⟩ := backend.tables_of_acknowledged atomic isOpen ran
  have held : ∀ store key column,
      Table.cell? (Tables.table (backend.tables after) store) key column =
        (backend.tables state).live? (RowChange.acknowledged changes replies) store key column := by
    intro store key column
    rw [tables, Tables.cell?_applyAll]
  constructor
  · intro store key
    have opened := backend.openStore_of_open stillOpen store
    have read := backend.reads after store key .fullRow stillOpen
    exact ⟨_, (Action.bind_of_ok opened).trans (Action.bind_of_ok read),
      showsRow_slice (held store) key⟩
  · intro store
    exact ⟨_, listsRows_rowsBehind (held store), fun limit selector made =>
      lists after store limit selector stillOpen made⟩

/-- Behind any run of row changes, of which some may have failed, a read of a whole row shows the
live cells of the row in column order, and a walk over all keys lists the rows in key order, but for
the cells of columns that the slice for whole rows does not reach. -/
theorem whole_rows_exact (changes : List RowChange) :
    (∀ memory : Memory, memory.closed = false → ∀ replies after,
      StoreCall.performAll Memory.manager (changes.map RowChange.call) memory = (replies, after) →
        AnswersWholeRows Memory.manager
          (memory.stores.current.live? (RowChange.acknowledged changes replies)) after) ∧
    ∀ embedded : Embedded, embedded.closed = false → ∀ replies after,
      StoreCall.performAll Embedded.manager (changes.map RowChange.call) embedded =
          (replies, after) →
        AnswersWholeRows Embedded.manager
          (embedded.stores.current.live? (RowChange.acknowledged changes replies)) after := by
  constructor
  · intro memory isOpen replies after ran
    apply Memory.tableBackend.answersWholeRows Memory.rowsAtomic Memory.guarded.listsTables _ ran
    show (!memory.closed) = true
    rw [isOpen]
    rfl
  · intro embedded isOpen replies after ran
    apply Embedded.tableBackend.answersWholeRows Embedded.rowsAtomic Embedded.guarded.listsTables _
      ran
    show (!embedded.closed) = true
    rw [isOpen]
    rfl

/-- Cells that are overwritten, deleted and written again in two rows. -/
def rewrittenRows : List RowChange :=
  [⟨"s", [1], [⟨[1], [7]⟩, ⟨[2], [7]⟩, ⟨ones 127, [7]⟩], []⟩, ⟨"s", [2], [⟨[1], [7]⟩], []⟩,
    ⟨"s", [1], [⟨[1], [8]⟩], [[1], [2]]⟩, ⟨"s", [2], [], [[1]]⟩]

/-- An open backend with an empty log. -/
def emptyLogged : Embedded :=
  ⟨.empty, LogWriter.new (LogFile.ofBytes []) 0 0 true, false, ⟨0, 0, 0⟩, none⟩

theorem whole_rows_exact_rewrittenRows :
    (∃ after, Memory.empty.closed = false ∧
      (StoreCall.performAll Memory.manager (rewrittenRows.map RowChange.call) .empty).2 = after ∧
      AnswersWholeRows Memory.manager (Tables.live? .empty rewrittenRows) after) ∧
    (∃ after, emptyLogged.closed = false ∧
      (StoreCall.performAll Embedded.manager (rewrittenRows.map RowChange.call) emptyLogged).2 =
        after ∧
      AnswersWholeRows Embedded.manager (Tables.live? .empty rewrittenRows) after) ∧
    Tables.live? .empty rewrittenRows "s" [1] [1] = some [8] ∧
    Tables.live? .empty rewrittenRows "s" [1] [2] = none ∧
    Tables.live? .empty rewrittenRows "s" [1] (ones 127) = some [7] ∧
    Tables.live? .empty rewrittenRows "s" [2] [1] = none := by
  obtain ⟨inMemory, withLog⟩ := whole_rows_exact rewrittenRows
  refine ⟨?_, ?_, by decide +kernel, by decide +kernel, by decide +kernel, by decide +kernel⟩
  · rcases ran : StoreCall.performAll Memory.manager (rewrittenRows.map RowChange.call) .empty with
      ⟨replies, after⟩
    have allMade : RowChange.acknowledged rewrittenRows
        (StoreCall.performAll Memory.manager (rewrittenRows.map RowChange.call) .empty).1 =
          rewrittenRows := by
      decide +kernel
    rw [ran] at allMade
    have answers := inMemory .empty rfl replies after ran
    rw [allMade] at answers
    exact ⟨after, rfl, rfl, answers⟩
  · rcases ran : StoreCall.performAll Embedded.manager (rewrittenRows.map RowChange.call)
      emptyLogged with ⟨replies, after⟩
    have allMade : RowChange.acknowledged rewrittenRows (StoreCall.performAll Embedded.manager
        (rewrittenRows.map RowChange.call) emptyLogged).1 = rewrittenRows := by
      decide +kernel
    rw [ran] at allMade
    have answers := withLog emptyLogged rfl replies after ran
    rw [allMade] at answers
    exact ⟨after, rfl, rfl, answers⟩

/-- A row with a cell of the empty column beside another one, and a row with that cell alone. -/
def emptyColumnRows : List RowChange :=
  [⟨"s", [1], [⟨[], [7]⟩, ⟨[1], [8]⟩], []⟩, ⟨"s", [2], [⟨[], [9]⟩], []⟩]

/-- The cells of the empty column are live and shorter than 128 bytes, and yet a read of the one row
does not show it and a walk over all keys does not list the other row. -/
theorem whole_rows_omit_emptyColumn :
    (∀ change ∈ emptyColumnRows, ∀ entry ∈ change.additions, entry.column.length < 128) ∧
      Memory.empty.stores.current.live? emptyColumnRows "s" [1] [] = some [7] ∧
      Memory.empty.stores.current.live? emptyColumnRows "s" [2] [] = some [9] ∧
      (StoreCall.performAll Memory.manager (emptyColumnRows.map RowChange.call ++
        [.getSlice "s" [1] .fullRow, .getKeys "s" .full .fullRow ⟨fun _ => true, 10, 0⟩])
          .empty).1 =
        [.ok .done, .ok .done, .ok (.entries [⟨[1], [8]⟩]),
          .ok (.rows [.ok ⟨[1], [⟨[1], [8]⟩]⟩])] :=
  ⟨by decide, by decide, by decide, rfl⟩

end GraphStore
