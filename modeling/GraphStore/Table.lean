import GraphStore.OrderedMap
import GraphStore.Slice
import GraphStore.KeyRange.Basic

/-!
Contract: rows and tables held in memory.

Owns reading a slice of a row, changing a row, reading a page of rows, and the test
of one cell. A table holds no empty row.
-/

namespace GraphStore

/-- A row: values by column. -/
abbrev Row := OrderedMap Bytes Bytes

/-- A table: rows by key. -/
abbrev Table := OrderedMap Bytes Row

/-- Tables by store name. -/
abbrev Tables := OrderedMap String Table

/-- A row key with entries of its row. -/
structure KeyedRow where
  key : Bytes
  entries : List Entry
deriving DecidableEq, Repr

namespace Row

def toEntries (row : Row) : List Entry := row.entries.map fun entry => ⟨entry.1, entry.2⟩

/-- The entries of a row that lie in a slice, up to its cap. -/
def slice (row : Row) (slice : Slice) : List Entry :=
  slice.cap (Row.toEntries (row.filter fun column _ => slice.contains column))

/-- The row after deletions and then additions. -/
def change (row : Row) (additions : List Entry) (deletions : List Bytes) : Row :=
  additions.foldl (fun row entry => row.insert entry.column entry.value)
    (deletions.foldl (fun row column => row.erase column) row)

end Row

namespace Table

/-- The row of a key; an absent row has no entries. -/
def row (table : Table) (key : Bytes) : Row := table.findD key .empty

def slice (table : Table) (key : Bytes) (slice : Slice) : List Entry :=
  Row.slice (Table.row table key) slice

def cell? (table : Table) (key column : Bytes) : Option Bytes :=
  (Table.row table key).find? column

/-- The table with a row in place of the old one; an empty row is dropped. -/
def putRow (table : Table) (key : Bytes) (row : Row) : Table :=
  if row.isEmpty then table.erase key else table.insert key row

/-- The table after deletions and then additions in one row. -/
def change (table : Table) (key : Bytes) (additions : List Entry) (deletions : List Bytes) :
    Table :=
  Table.putRow table key (Row.change (Table.row table key) additions deletions)

/-- Whether a key lies in the range and behind the key of the previous page. -/
def inPage (range : KeyRange) (after : Option Bytes) (key : Bytes) : Bool :=
  range.contains key && match after with
    | some last => last < key
    | none => true

/-- The first `size` rows of a range behind `after`, in key order, each with its entries
in the slice; rows without such entries are left out. -/
def page (table : Table) (range : KeyRange) (slice : Slice) (after : Option Bytes)
    (size : Nat) : List KeyedRow :=
  let rows := (table.filter fun key _ => inPage range after key).entries.map fun entry =>
    (⟨entry.1, Row.slice entry.2 slice⟩ : KeyedRow)
  (rows.filter fun row => !row.entries.isEmpty).take size

end Table

namespace Tables

/-- The table of a store; an absent table has no rows. -/
def table (tables : Tables) (store : String) : Table := tables.findD store .empty

/-- The tables after a change of one row. -/
def change (tables : Tables) (store : String) (key : Bytes) (additions : List Entry)
    (deletions : List Bytes) : Tables :=
  tables.insert store (Table.change (Tables.table tables store) key additions deletions)

end Tables

end GraphStore
