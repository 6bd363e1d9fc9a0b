import GraphStore.Manager.Generations

/-!
Contract: the backend that keeps every store in memory.

Owns its state and operations. Every operation on stores fails once the manager is
closed; clearing it does not.
-/

namespace GraphStore

structure Memory where
  stores : Generations
  closed : Bool
deriving DecidableEq

namespace Memory

/-- An open backend without data. -/
def empty : Memory := ⟨.empty, false⟩

def ensureOpen : Action Memory Unit := fun memory =>
  if memory.closed then (.error (.closed .memoryManager), memory) else (.ok (), memory)

def modifyStores (change : Generations → Generations) : Action Memory Unit :=
  modify fun memory => { memory with stores := change memory.stores }

def openStore (name : String) : Action Memory StoreRef := do
  ensureOpen
  return (← get).stores.refer name

def getSlice (store : StoreRef) (key : Bytes) (slice : Slice) :
    Action Memory (List Entry) := do
  ensureOpen
  return Table.slice ((← get).stores.table store) key slice

def mutate (store : StoreRef) (key : Bytes) (additions : List Entry) (deletions : List Bytes) :
    Action Memory Unit := do
  ensureOpen
  modifyStores fun stores => stores.change store key additions deletions

def startScan (_store : StoreRef) : Action Memory Unit := ensureOpen

def scanPage (store : StoreRef) (range : KeyRange) (slice : Slice) : PageSource Memory :=
  fun after size => do
    ensureOpen
    return Table.page ((← get).stores.table store) range slice after size

def compareAndSwap (store : StoreRef) (key column : Bytes) (expected : Option Bytes)
    (new : Bytes) : Action Memory Bool := do
  ensureOpen
  if Table.cell? ((← get).stores.table store) key column = expected then
    modifyStores fun stores => stores.change store key [⟨column, new⟩] []
    return true
  else return false

/-- Changes rows of one store in key order. -/
def changeRows (store : StoreRef) (rows : List (Bytes × Mutation)) (stores : Generations) :
    Generations :=
  rows.foldl (fun stores row =>
    stores.change store row.1 row.2.addedEntries row.2.deletedColumns) stores

def mutateStores : List (String × OrderedMap Bytes Mutation) → Action Memory Unit
  | [] => return ()
  | (name, rows) :: stores => do
    let store ← Action.mapError (.persistence name) (openStore name)
    modifyStores (changeRows store rows.entries)
    mutateStores stores

def close : Action Memory Unit := modify fun memory => { memory with closed := true }

def clearStorage : Action Memory Unit := modifyStores Generations.clear

def features : Features where
  orderedKeys := true
  ttl := false
  multiRowTransactions := false
  batchMutation := true
  conditionalWrites := true
  persistent := false

def manager : Manager Memory where
  name := "inmemory"
  features := features
  openStore := openStore
  getSlice := getSlice
  mutate := mutate
  startScan := startScan
  scanPage := scanPage
  compareAndSwap := compareAndSwap
  mutateMany mutations := mutateStores mutations.entries
  close := close
  clearStorage := clearStorage
  rowCount store memory := (memory.stores.table store).size

end Memory

end GraphStore
