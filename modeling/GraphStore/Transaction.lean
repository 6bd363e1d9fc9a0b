import GraphStore.Cache.Stores

/-!
Contract: transactions that hold writes back until they are committed.

Owns staging, reads that see the staged writes, and the flush. Staging touches nothing
but the transaction. A commit writes store after store in name order and the rows of a
store in key order; it stops at the first failure, which names the store, and leaves
what is already written.
-/

namespace GraphStore

/-- Where a transaction stands. -/
inductive TransactionState where
  | running
  | committed
  | failed
  | rolledBack
deriving DecidableEq, Repr

/-- The staged writes of one unit of work. -/
structure Transaction where
  pending : StoreMutations
  /-- The most rows that one batch of the flush may carry. -/
  bufferSize : Nat
  state : TransactionState
deriving DecidableEq

namespace Transaction

variable {σ : Type}

/-- A transaction without staged writes; batches carry at least one row. -/
def start (bufferSize : Nat) : Transaction := ⟨.empty, max bufferSize 1, .running⟩

def isOpen (transaction : Transaction) : Bool := transaction.state = .running

/-- Fails once the transaction is over. -/
def ensureOpen (transaction : Transaction) : Result Unit :=
  if transaction.isOpen then .ok () else .error (.closed .transaction)

def staged? (transaction : Transaction) (store : String) (key : Bytes) : Option Mutation :=
  (transaction.pending.find? store).bind fun rows => rows.find? key

/-- Whether a commit would write anything. -/
def hasModifications (transaction : Transaction) : Bool :=
  transaction.pending.values.any fun rows => rows.values.any fun mutation => !mutation.isEmpty

def stagedRows (transaction : Transaction) : Nat :=
  transaction.pending.values.foldr (fun rows total => rows.size + total) 0

/-- Pending mutations with a further mutation of one row on top. -/
def stageRow (pending : StoreMutations) (store : String) (key : Bytes) (later : Mutation) :
    StoreMutations :=
  let rows := pending.findD store .empty
  pending.insert store (rows.insert key ((rows.findD key .empty).merge later))

def mutate (transaction : Transaction) (store : String) (key : Bytes)
    (additions : List Entry) (deletions : List Bytes) : Result Transaction := do
  transaction.ensureOpen
  if additions.isEmpty && deletions.isEmpty then return transaction
  return { transaction with
    pending := stageRow transaction.pending store key (.ofParts additions deletions) }

/-- The entries of a slice as they are after the staged writes, from the committed
entries between its bounds. -/
def overlay (committed : List Entry) (staged : Mutation) (slice : Slice) : List Entry :=
  let row : Row := OrderedMap.ofList (committed.map fun entry => (entry.column, entry.value))
  let added := staged.addedEntries.filter fun entry => slice.contains entry.column
  slice.cut (Row.toEntries (Row.change row added staged.deletedColumns))

/-- The entries of a slice, the staged writes included. -/
def getSlice (transaction : Transaction) (stores : CachedStores σ) (store : String)
    (key : Bytes) (slice : Slice) : Action σ (List Entry) := do
  Action.ofResult transaction.ensureOpen
  let handle ← stores.store store
  match transaction.staged? store key with
  | none => stores.getSlice handle key slice
  | some staged =>
    let bounds ← Action.ofResult (Slice.between slice.start slice.stop)
    let committed ← stores.getSlice handle key bounds
    return overlay committed staged slice

/-! ### Commit -/

/-- A failed write names its store; a failure that names one already stays. -/
def naming (store : String) (failure : StoreError) : StoreError :=
  if failure.isPersistence then failure else .persistence store failure

/-- Lists of at most `size` members whose concatenation is the given list. -/
def chunks {α : Type} (size : Nat) (members : List α) : List (List α) :=
  match members with
  | [] => []
  | first :: others =>
    (first :: others.take (size - 1)) :: chunks size (others.drop (size - 1))
termination_by members.length
decreasing_by simp only [List.length_drop, List.length_cons]; omega

/-- Writes rows of one store in batches, up to the first failure. -/
def flushBatches (manager : Manager σ) (store : String) :
    List (List (Bytes × Mutation)) → Action σ Unit
  | [] => return ()
  | batch :: batches => do
    Action.mapError (naming store)
      (manager.mutateMany (OrderedMap.empty.insert store (OrderedMap.ofList batch)))
    flushBatches manager store batches

/-- Writes rows of one store one by one, past the cache, up to the first failure. -/
def flushRows (manager : Manager σ) (name : String) (store : StoreRef) :
    List (Bytes × Mutation) → Action σ Unit
  | [] => return ()
  | (key, mutation) :: rows => do
    Action.mapError (.persistence name)
      (manager.mutate store key mutation.addedEntries mutation.deletedColumns)
    flushRows manager name store rows

def invalidateRows (stores : CachedStores σ) (handle : CachedStore) :
    List Bytes → Action σ Unit
  | [] => return ()
  | key :: keys => do
    stores.invalidate handle key
    invalidateRows stores handle keys

/-- Writes the staged rows of one store and invalidates them all, written or not. -/
def flushStore (stores : CachedStores σ) (bufferSize : Nat) (name : String)
    (rows : OrderedMap Bytes Mutation) : Action σ Unit := do
  let handle ← Action.mapError (.persistence name) (stores.store name)
  let write :=
    if stores.manager.features.batchMutation then
      flushBatches stores.manager name (chunks bufferSize rows.entries)
    else flushRows stores.manager name handle.store rows.entries
  let outcome ← write.outcome
  invalidateRows stores handle rows.keys
  Action.ofResult outcome

/-- Writes the staged rows store by store in name order, up to the first failure. -/
def flush (stores : CachedStores σ) (bufferSize : Nat) :
    List (String × OrderedMap Bytes Mutation) → Action σ Unit
  | [] => return ()
  | (name, rows) :: others => do
    flushStore stores bufferSize name rows
    flush stores bufferSize others

def finished (transaction : Transaction) (outcome : Result Unit) : Transaction :=
  { transaction with
    pending := .empty
    state := match outcome with
      | .ok () => .committed
      | .error _ => .failed }

/-- Writes everything staged and ends the transaction. -/
def commit (transaction : Transaction) (stores : CachedStores σ) :
    StateM σ (Result Unit × Transaction) := fun state =>
  match transaction.ensureOpen with
  | .error failure => ((.error failure, transaction), state)
  | .ok () =>
    let (outcome, state) :=
      flush stores transaction.bufferSize transaction.pending.entries state
    ((outcome, transaction.finished outcome), state)

/-- Drops everything staged and ends the transaction. -/
def rollback (transaction : Transaction) : Result Transaction := do
  transaction.ensureOpen
  return { transaction with pending := .empty, state := .rolledBack }

end Transaction

end GraphStore
