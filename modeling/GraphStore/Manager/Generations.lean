import GraphStore.Manager.Basic

/-!
Contract: the tables behind store references.

Owns one set of tables per generation. Clearing empties the tables of the current
generation and starts the next one; references of earlier generations keep reaching
the tables of theirs.
-/

namespace GraphStore

/-- The tables of all generations, earlier ones oldest first. -/
structure Generations where
  earlier : List Tables
  current : Tables
deriving DecidableEq

namespace Generations

/-- No tables, in the first generation. -/
def empty : Generations := ⟨[], .empty⟩

def ofTables (tables : Tables) : Generations := ⟨[], tables⟩

def number (generations : Generations) : Nat := generations.earlier.length

/-- A reference to a store of the current generation. -/
def refer (generations : Generations) (name : String) : StoreRef := ⟨name, generations.number⟩

def tablesOf (generations : Generations) (generation : Nat) : Tables :=
  (generations.earlier[generation]?).getD generations.current

def table (generations : Generations) (store : StoreRef) : Table :=
  Tables.table (generations.tablesOf store.generation) store.name

/-- The tables after a change of one row through a reference. -/
def change (generations : Generations) (store : StoreRef) (key : Bytes)
    (additions : List Entry) (deletions : List Bytes) : Generations :=
  let tables :=
    Tables.change (generations.tablesOf store.generation) store.name key additions deletions
  if store.generation < generations.number then
    { generations with earlier := generations.earlier.set store.generation tables }
  else { generations with current := tables }

/-- Empties the current tables and starts the next generation. -/
def clear (generations : Generations) : Generations :=
  ⟨generations.earlier ++ [.empty], .empty⟩

end Generations

end GraphStore
