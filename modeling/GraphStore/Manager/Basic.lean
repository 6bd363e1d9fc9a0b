import GraphStore.Mutation
import GraphStore.Paging

/-!
Contract: what a storage backend offers.

Owns the capabilities, the references to stores, the operations of a manager and of
its stores, and the batch change that opens every store and writes row by row. A
manager is a record of operations on a state of its own kind, so that backends, caches
and stand-ins for them are used alike.
-/

namespace GraphStore

/-- The capabilities of a backend. -/
structure Features where
  orderedKeys : Bool
  ttl : Bool
  multiRowTransactions : Bool
  batchMutation : Bool
  conditionalWrites : Bool
  persistent : Bool
deriving DecidableEq, Repr

/-- A store as acquired from a manager. Clearing a manager starts a new generation of
stores; a reference belongs to the generation it was acquired in. -/
structure StoreRef where
  name : String
  generation : Nat
deriving DecidableEq, Repr

/-- A storage backend with states `σ`. -/
structure Manager (σ : Type) where
  /-- The name of the backend. -/
  name : String
  features : Features
  /-- Acquires a store, which exists from its first use on. -/
  openStore : String → Action σ StoreRef
  /-- The entries of a row in a slice, in column order. -/
  getSlice : StoreRef → Bytes → Slice → Action σ (List Entry)
  /-- Applies deletions and then additions to one row, all or none. -/
  mutate : StoreRef → Bytes → List Entry → List Bytes → Action σ Unit
  /-- Allows or refuses a scan of keys. -/
  startScan : StoreRef → Action σ Unit
  /-- The pages of a scan of keys. -/
  scanPage : StoreRef → KeyRange → Slice → PageSource σ
  /-- Writes a cell if it holds the expected value (`none`: if it is absent). -/
  compareAndSwap : StoreRef → Bytes → Bytes → Option Bytes → Bytes → Action σ Bool
  /-- Applies the mutations of many rows. -/
  mutateMany : StoreMutations → Action σ Unit
  /-- Releases the backend. -/
  close : Action σ Unit
  /-- Drops every store and its data. -/
  clearStorage : Action σ Unit
  /-- The number of rows of a store, a bound for the pages of a scan. -/
  rowCount : StoreRef → σ → Nat

namespace Manager

variable {σ : Type}

def scanPageRows : Nat := 256

/-- Writes rows of one store in key order, up to the first failure. -/
def writeRows (manager : Manager σ) (store : StoreRef) : List (Bytes × Mutation) → Action σ Unit
  | [] => return ()
  | (key, mutation) :: rows => do
    Action.mapError (.persistence store.name)
      (manager.mutate store key mutation.addedEntries mutation.deletedColumns)
    writeRows manager store rows

/-- Opens each store in name order and writes its rows, up to the first failure. -/
def writeStores (manager : Manager σ) :
    List (String × OrderedMap Bytes Mutation) → Action σ Unit
  | [] => return ()
  | (name, rows) :: stores => do
    let store ← manager.openStore name
    writeRows manager store rows.entries
    writeStores manager stores

/-- The batch change of a backend without one of its own. -/
def mutateEach (manager : Manager σ) (mutations : StoreMutations) : Action σ Unit :=
  manager.writeStores mutations.entries

/-- The slices of several rows, up to the first failure. -/
def getSlices (manager : Manager σ) (store : StoreRef) (slice : Slice) :
    List Bytes → Action σ (List KeyedRow)
  | [] => return []
  | key :: keys => do
    let entries ← manager.getSlice store key slice
    let others ← getSlices manager store slice keys
    return ⟨key, entries⟩ :: others

/-- A walk over the keys of a store. -/
structure Scan where
  store : StoreRef
  range : KeyRange
  slice : Slice
  pager : Pager

def getKeys (manager : Manager σ) (store : StoreRef) (range : KeyRange) (slice : Slice)
    (selector : Selector) : Action σ Scan := do
  manager.startScan store
  return ⟨store, range, slice, Pager.new selector scanPageRows⟩

def Scan.next (manager : Manager σ) (scan : Scan) (state : σ) :
    Option (Result KeyedRow) × Scan × σ :=
  let pages := manager.rowCount scan.store state + 2
  let (row, pager, state) :=
    scan.pager.next (manager.scanPage scan.store scan.range scan.slice) pages state
  (row, { scan with pager := pager }, state)

/-- The rows and failures of a walk up to its end, or up to `fuel` of them. `before` runs
ahead of each request for a row and learns how many have been collected; its failure ends
the walk. -/
def Scan.collect {ε : Type} (manager : Manager σ) (before : Nat → ExceptT ε (StateM σ) Unit) :
    (fuel : Nat) → (found : List (Result KeyedRow)) → Scan →
      ExceptT ε (StateM σ) (List (Result KeyedRow))
  | 0, found, _ => return found.reverse
  | fuel + 1, found, scan => do
    before found.length
    let (row, scan) ← modifyGet fun state =>
      let (row, scan, state) := scan.next manager state
      ((row, scan), state)
    match row with
    | some row => collect manager before fuel (row :: found) scan
    | none => return found.reverse

/-- All rows of a store in a range, up to the first failure, which comes last. -/
def allKeys (manager : Manager σ) (store : StoreRef) (range : KeyRange) (slice : Slice)
    (selector : Selector) : Action σ (List (Result KeyedRow)) := do
  let scan ← getKeys manager store range slice selector
  scan.collect manager (fun _ => return ()) (manager.rowCount store (← get) + 2) []

def within {τ : Type} (manager : Manager σ) (part : τ → σ) (replace : τ → σ → τ) :
    Manager τ where
  name := manager.name
  features := manager.features
  openStore name := (manager.openStore name).within part replace
  getSlice store key slice := (manager.getSlice store key slice).within part replace
  mutate store key additions deletions :=
    (manager.mutate store key additions deletions).within part replace
  startScan store := (manager.startScan store).within part replace
  scanPage store range slice after size :=
    (manager.scanPage store range slice after size).within part replace
  compareAndSwap store key column expected new :=
    (manager.compareAndSwap store key column expected new).within part replace
  mutateMany mutations := (manager.mutateMany mutations).within part replace
  close := manager.close.within part replace
  clearStorage := manager.clearStorage.within part replace
  rowCount store whole := manager.rowCount store (part whole)

end Manager

end GraphStore
