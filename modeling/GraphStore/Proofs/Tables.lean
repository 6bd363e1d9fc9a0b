import GraphStore.Log.Record
import GraphStore.Manager.Embedded

/-!
Contract: what tables hold after changes of rows.

Owns the look-up equations of row changes, agreement of tables store by store
(`Tables.Agree`), and the snapshot law: the live rows of tables, applied to no tables at all,
give the tables back (`applyAll_liveRows`). The law needs that no row is empty, which every
change keeps (`Tables.Tidy`).
-/

namespace GraphStore

/-! ### Maps from ascending entries -/

namespace OrderedMap

variable {κ ν : Type} [LT κ] [DecidableEq κ] [LE κ] [Std.LawfulOrderLT κ]

/-- What ascending entries contribute under one key comes from the entry of that key. -/
theorem filter_flatMap {α : Type} {entries : List (κ × ν)}
    (ascending : entries.Pairwise (fun left right => left.1 < right.1))
    {expand : κ × ν → List α} {keep : α → Bool} {key : κ}
    (others : ∀ entry ∈ entries, entry.1 ≠ key → (expand entry).filter keep = []) :
    (entries.flatMap expand).filter keep =
      ((entries.lookup key).map fun value => (expand (key, value)).filter keep).getD [] := by
  induction entries with
  | nil => rfl
  | cons head tail inductionHypothesis =>
      obtain ⟨below, tailAscending⟩ := List.pairwise_cons.1 ascending
      have rest := inductionHypothesis tailAscending fun entry member =>
        others entry (List.mem_cons_of_mem _ member)
      rw [List.flatMap_cons, List.filter_append, rest, List.lookup_cons]
      by_cases atHead : key = head.1
      · subst atHead
        rw [lookup_eq_none_of_below below, beq_self_eq_true]
        exact List.append_nil _
      · rw [others head List.mem_cons_self (Ne.symm atHead), beq_eq_false_iff_ne.2 atHead,
          List.nil_append]

variable [DecidableLT κ] [Std.IsLinearOrder κ]

/-- Inserting ascending entries one after the other overlays a map with them. -/
theorem find?_foldl_insert {entries : List (κ × ν)}
    (ascending : entries.Pairwise (fun left right => left.1 < right.1)) (start : OrderedMap κ ν)
    (key : κ) :
    (entries.foldl (fun map entry => map.insert entry.1 entry.2) start).find? key =
      (entries.lookup key).or (start.find? key) := by
  induction entries generalizing start with
  | nil => rfl
  | cons head tail inductionHypothesis =>
      obtain ⟨below, tailAscending⟩ := List.pairwise_cons.1 ascending
      rw [List.foldl_cons, inductionHypothesis tailAscending, find?_insert, List.lookup_cons]
      by_cases atHead : key = head.1
      · rw [atHead, lookup_eq_none_of_below below, if_pos rfl, beq_self_eq_true]
        rfl
      · rw [if_neg atHead, beq_eq_false_iff_ne.2 atHead]

/-- A map with an entry put in place has entries. -/
theorem isEmpty_insert (map : OrderedMap κ ν) (key : κ) (value : ν) :
    (map.insert key value).isEmpty = false := by
  cases none : (map.insert key value).isEmpty with
  | false => rfl
  | true =>
      have found := find?_insert map key key value
      rw [find?, List.isEmpty_iff.1 none, if_pos rfl] at found
      exact absurd found.symm (Option.some_ne_none _)

/-- A map is the map of its entries. -/
theorem ofList_entries (map : OrderedMap κ ν) : ofList map.entries = map := by
  refine ext_find? fun key => ?_
  rw [ofList, find?_foldl_insert map.ascending, find?_empty, Option.or_none]
  rfl

end OrderedMap

/-! ### Rows -/

theorem Row.change_toEntries (row : Row) : Row.change .empty (Row.toEntries row) [] = row := by
  show (row.entries.map fun entry => (⟨entry.1, entry.2⟩ : Entry)).foldl
    (fun (row : Row) entry => row.insert entry.column entry.value) .empty = row
  rw [List.foldl_map]
  exact OrderedMap.ofList_entries row

/-! ### Tables -/

namespace Table

/-- No row of the table is empty. -/
def Tidy (table : Table) : Prop := ∀ key row, table.find? key = some row → row.isEmpty = false

theorem tidy_empty : Tidy .empty := nofun

/-- No change leaves an empty row in a table. -/
theorem Tidy.change {table : Table} (tidy : table.Tidy) (key : Bytes) (additions : List Entry)
    (deletions : List Bytes) : (Table.change table key additions deletions).Tidy := by
  intro probe row found
  rw [Table.change, putRow] at found
  split at found
  · rw [OrderedMap.find?_erase] at found
    split at found
    · exact absurd found nofun
    · exact tidy probe row found
  · rename_i filled
    rw [OrderedMap.find?_insert] at found
    split at found
    · rw [← Option.some.inj found]
      exact Bool.eq_false_iff.2 filled
    · exact tidy probe row found

theorem row_eq_empty {table : Table} {key : Bytes} (absent : table.find? key = none) :
    Table.row table key = .empty := by
  rw [Table.row, OrderedMap.findD, absent]
  rfl

/-- Putting ascending rows into a table that has none of their keys inserts them as they are. -/
theorem foldl_change_eq_insert {rows : List (Bytes × Row)}
    (ascending : rows.Pairwise (fun left right => left.1 < right.1))
    (filled : ∀ row ∈ rows, row.2.isEmpty = false) {start : Table}
    (absent : ∀ row ∈ rows, start.find? row.1 = none) :
    rows.foldl (fun table row => Table.change table row.1 (Row.toEntries row.2) []) start =
      rows.foldl (fun (table : Table) row => table.insert row.1 row.2) start := by
  induction rows generalizing start with
  | nil => rfl
  | cons head tail inductionHypothesis =>
      obtain ⟨below, tailAscending⟩ := List.pairwise_cons.1 ascending
      have inserted : Table.change start head.1 (Row.toEntries head.2) [] =
          start.insert head.1 head.2 := by
        rw [Table.change, row_eq_empty (absent head List.mem_cons_self), Row.change_toEntries,
          putRow, filled head List.mem_cons_self]
        rfl
      have stillAbsent : ∀ row ∈ tail, (start.insert head.1 head.2).find? row.1 = none := by
        intro row member
        have apart : row.1 ≠ head.1 := fun same =>
          Std.lt_irrefl (by
            have less := below row member
            rwa [same] at less)
        rw [OrderedMap.find?_insert, if_neg apart]
        exact absent row (List.mem_cons_of_mem _ member)
      rw [List.foldl_cons, List.foldl_cons, inserted]
      exact inductionHypothesis tailAscending
        (fun row member => filled row (List.mem_cons_of_mem _ member)) stillAbsent

/-- The rows of a table, put into the empty table, give the table. -/
theorem foldl_change_entries {table : Table} (tidy : table.Tidy) :
    table.entries.foldl (fun table row => Table.change table row.1 (Row.toEntries row.2) [])
      .empty = table := by
  have filled : ∀ row ∈ table.entries, row.2.isEmpty = false := fun row member =>
    tidy row.1 row.2 (OrderedMap.find?_eq_some_iff.2 member)
  rw [foldl_change_eq_insert table.ascending filled fun _ _ => rfl]
  exact OrderedMap.ofList_entries table

/-! ### Single cells -/

/-- An uncapped slice shows each of its columns as the cell holds it. -/
theorem find?_slice (table : Table) (key : Bytes) {slice : Slice} (uncapped : slice.limit = none)
    {column : Bytes} (within : slice.contains column = true) :
    (Table.slice table key slice).find? (fun entry => entry.column = column) =
      (Table.cell? table key column).map fun value => ⟨column, value⟩ := by
  have shown : Table.slice table key slice =
      ((Table.row table key).entries.filter fun entry => slice.contains entry.1).map
        fun entry => (⟨entry.1, entry.2⟩ : Entry) := by
    rw [Table.slice, Row.slice, Slice.cap, uncapped]
    rfl
  rw [shown, Table.cell?]
  cases held : (Table.row table key).find? column with
  | some value =>
      have member : (⟨column, value⟩ : Entry) ∈
          ((Table.row table key).entries.filter fun entry => slice.contains entry.1).map
            fun entry => (⟨entry.1, entry.2⟩ : Entry) :=
        List.mem_map.2 ⟨(column, value),
          List.mem_filter.2 ⟨OrderedMap.find?_eq_some_iff.1 held, within⟩, rfl⟩
      cases first : List.find? (fun entry : Entry => entry.column = column)
          (((Table.row table key).entries.filter fun entry => slice.contains entry.1).map
            fun entry => (⟨entry.1, entry.2⟩ : Entry)) with
      | none => exact absurd (decide_eq_true rfl) (List.find?_eq_none.1 first _ member)
      | some entry =>
          have selected := List.find?_some first
          have atColumn : entry.column = column := by simpa using selected
          obtain ⟨pair, inSlice, rfl⟩ := List.mem_map.1 (List.mem_of_find?_eq_some first)
          have found := OrderedMap.find?_eq_some_iff.2 (List.mem_filter.1 inSlice).1
          rw [show pair.1 = column from atColumn, held] at found
          rw [Option.map_some, Option.some.inj found, ← atColumn]
  | none =>
      refine List.find?_eq_none.2 fun entry inSlice => ?_
      obtain ⟨pair, inRow, rfl⟩ := List.mem_map.1 inSlice
      intro same
      have found := OrderedMap.find?_eq_some_iff.2 (List.mem_filter.1 inRow).1
      rw [show pair.1 = column from of_decide_eq_true same, held] at found
      exact absurd found nofun

/-- Writing a cell changes that cell and no other one. -/
theorem cell?_change (table : Table) (key column value : Bytes) (otherKey otherColumn : Bytes) :
    Table.cell? (Table.change table key [⟨column, value⟩] []) otherKey otherColumn =
      if otherKey = key ∧ otherColumn = column then some value
      else Table.cell? table otherKey otherColumn := by
  have filled : ((Table.row table key).insert column value).isEmpty = false :=
    OrderedMap.isEmpty_insert _ column value
  have changed : Table.change table key [⟨column, value⟩] [] =
      table.insert key ((Table.row table key).insert column value) := by
    show putRow table key ((Table.row table key).insert column value) = _
    rw [putRow, filled]
    rfl
  rw [changed, Table.cell?, Table.row, OrderedMap.findD, OrderedMap.find?_insert]
  by_cases sameKey : otherKey = key
  · rw [if_pos sameKey, Option.getD_some, OrderedMap.find?_insert, sameKey]
    by_cases sameColumn : otherColumn = column
    · rw [if_pos sameColumn, if_pos ⟨rfl, sameColumn⟩]
    · rw [if_neg sameColumn, if_neg fun both => sameColumn both.2]
      rfl
  · rw [if_neg sameKey, if_neg fun both => sameKey both.1]
    rfl

end Table

/-! ### Tables of all stores -/

namespace Tables

/-- A change shows in the table of its store alone. -/
theorem table_change (tables : Tables) (store name : String) (key : Bytes)
    (additions : List Entry) (deletions : List Bytes) :
    Tables.table (Tables.change tables store key additions deletions) name =
      if name = store then Table.change (Tables.table tables store) key additions deletions
      else Tables.table tables name := by
  rw [Tables.table, Tables.change, OrderedMap.findD, OrderedMap.find?_insert]
  split <;> rfl

/-- The two hold the same table for every store; one may list an empty table that the other
does not list. -/
def Agree (left right : Tables) : Prop := ∀ name, Tables.table left name = Tables.table right name

namespace Agree

variable {left middle right : Tables}

theorem refl (tables : Tables) : Agree tables tables := fun _ => rfl

theorem symm (agree : Agree left right) : Agree right left := fun name => (agree name).symm

theorem trans (first : Agree left middle) (second : Agree middle right) : Agree left right :=
  fun name => (first name).trans (second name)

/-- A row change keeps tables in agreement. -/
theorem change (agree : Agree left right) (store : String) (key : Bytes) (additions : List Entry)
    (deletions : List Bytes) :
    Agree (Tables.change left store key additions deletions)
      (Tables.change right store key additions deletions) := by
  intro name
  rw [table_change, table_change, agree name, agree store]

/-- Row changes keep tables in agreement. -/
theorem applyAll (agree : Agree left right) (changes : List RowChange) :
    Agree (Log.applyAll changes left) (Log.applyAll changes right) := by
  induction changes generalizing left right with
  | nil => exact agree
  | cons change changes inductionHypothesis =>
      exact inductionHypothesis
        (agree.change change.store change.key change.additions change.deletions)

end Agree

/-- No row of any store is empty. -/
def Tidy (tables : Tables) : Prop := ∀ name, (Tables.table tables name).Tidy

theorem tidy_empty : Tidy .empty := fun _ => Table.tidy_empty

theorem Tidy.change {tables : Tables} (tidy : tables.Tidy) (store : String) (key : Bytes)
    (additions : List Entry) (deletions : List Bytes) :
    (Tables.change tables store key additions deletions).Tidy := by
  intro name
  rw [table_change]
  split
  · exact (tidy store).change key additions deletions
  · exact tidy name

/-- No row change leaves an empty row. -/
theorem Tidy.applyAll {tables : Tables} (tidy : tables.Tidy) (changes : List RowChange) :
    (Log.applyAll changes tables).Tidy := by
  induction changes generalizing tables with
  | nil => exact tidy
  | cons change changes inductionHypothesis =>
      exact inductionHypothesis
        (tidy.change change.store change.key change.additions change.deletions)

end Tables

/-! ### Snapshots -/

namespace Embedded

/-- A store's table depends on the changes of that store only. -/
theorem table_applyAll (changes : List RowChange) (tables : Tables) (name : String) :
    Tables.table (Log.applyAll changes tables) name =
      (changes.filter fun change => change.store = name).foldl
        (fun table change => Table.change table change.key change.additions change.deletions)
        (Tables.table tables name) := by
  induction changes generalizing tables with
  | nil => rfl
  | cons change changes inductionHypothesis =>
      have first : Tables.table (change.apply tables) name =
          if name = change.store then Table.change (Tables.table tables change.store) change.key
            change.additions change.deletions
          else Tables.table tables name :=
        Tables.table_change tables change.store name change.key change.additions change.deletions
      show Tables.table (Log.applyAll changes (change.apply tables)) name = _
      rw [inductionHypothesis, first, List.filter_cons]
      by_cases ofStore : change.store = name
      · rw [if_pos ofStore.symm, if_pos (decide_eq_true ofStore), ofStore, List.foldl_cons]
      · rw [if_neg (Ne.symm ofStore), if_neg (by simp [ofStore])]

def rowsOf (store : String) (table : Table) : List RowChange :=
  table.entries.map fun row => ⟨store, row.1, Row.toEntries row.2, []⟩

theorem filter_rowsOf (store name : String) (table : Table) :
    (rowsOf store table).filter (fun change => change.store = name) =
      if store = name then rowsOf store table else [] := by
  split
  · rename_i same
    refine List.filter_eq_self.2 fun change member => ?_
    obtain ⟨row, _, rfl⟩ := List.mem_map.1 member
    exact decide_eq_true same
  · rename_i different
    refine List.filter_eq_nil_iff.2 fun change member => ?_
    obtain ⟨row, _, rfl⟩ := List.mem_map.1 member
    simpa using different

/-- Of ascending stores, the live rows of one name are those of the table found under it. -/
theorem filter_liveRows {stores : List (String × Table)}
    (ascending : stores.Pairwise (fun left right => left.1 < right.1)) (name : String) :
    (stores.flatMap fun store => rowsOf store.1 store.2).filter
        (fun change => change.store = name) =
      rowsOf name ((stores.lookup name).getD .empty) := by
  have others : ∀ store ∈ stores, store.1 ≠ name →
      (rowsOf store.1 store.2).filter (fun change => change.store = name) = [] := by
    intro store _ different
    rw [filter_rowsOf, if_neg different]
  rw [OrderedMap.filter_flatMap ascending others]
  cases stores.lookup name with
  | none => rfl
  | some table => exact (filter_rowsOf name name table).trans (if_pos rfl)

/-- The live rows of tables, applied to no tables at all, give the tables back. -/
theorem applyAll_liveRows {tables : Tables} (tidy : tables.Tidy) :
    Tables.Agree (Log.applyAll (liveRows tables) .empty) tables := by
  intro name
  have rows : (liveRows tables).filter (fun change => change.store = name) =
      rowsOf name (Tables.table tables name) :=
    filter_liveRows tables.ascending name
  rw [table_applyAll, rows, rowsOf, List.foldl_map]
  exact Table.foldl_change_entries (tidy name)

end Embedded

end GraphStore
