import GraphStore.OrderedMap
import GraphStore.Slice

/-!
Contract: consolidated pending changes of one row.

Owns additions and deletions by column. Staging one kind of change takes back the
other kind on the same column, so the last change of a column counts in whatever
order the two halves are applied.
-/

namespace GraphStore

/-- Pending additions and deletions of a row. -/
structure Mutation where
  additions : OrderedMap Bytes Bytes
  deletions : OrderedMap Bytes Unit
deriving DecidableEq

namespace Mutation

def empty : Mutation := ⟨.empty, .empty⟩

def add (mutation : Mutation) (entry : Entry) : Mutation :=
  { additions := mutation.additions.insert entry.column entry.value
    deletions := mutation.deletions.erase entry.column }

def delete (mutation : Mutation) (column : Bytes) : Mutation :=
  { additions := mutation.additions.erase column
    deletions := mutation.deletions.insert column () }

/-- The staged additions in column order. -/
def addedEntries (mutation : Mutation) : List Entry :=
  mutation.additions.entries.map fun entry => ⟨entry.1, entry.2⟩

/-- The staged deletions in column order. -/
def deletedColumns (mutation : Mutation) : List Bytes := mutation.deletions.keys

/-- Stages deletions, then additions. -/
def stage (mutation : Mutation) (additions : List Entry) (deletions : List Bytes) : Mutation :=
  additions.foldl add (deletions.foldl delete mutation)

/-- The mutation of raw halves, deletions first. -/
def ofParts (additions : List Entry) (deletions : List Bytes) : Mutation :=
  empty.stage additions deletions

/-- The mutation with a later one on top. -/
def merge (earlier later : Mutation) : Mutation :=
  earlier.stage later.addedEntries later.deletedColumns

/-- What is staged for a column: `some (some value)` when added, `some none` when
deleted, `none` when untouched. -/
def lookup (mutation : Mutation) (column : Bytes) : Option (Option Bytes) :=
  match mutation.additions.find? column with
  | some value => some (some value)
  | none => if mutation.deletions.contains column then some none else none

def isEmpty (mutation : Mutation) : Bool :=
  mutation.additions.isEmpty && mutation.deletions.isEmpty

/-- The number of staged changes. -/
def size (mutation : Mutation) : Nat := mutation.additions.size + mutation.deletions.size

end Mutation

/-- Pending mutations by store name, then by row key. -/
abbrev StoreMutations := OrderedMap String (OrderedMap Bytes Mutation)

end GraphStore
