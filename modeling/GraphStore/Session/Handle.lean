import GraphStore.Cache.Stores

/-!
Contract: stores that a session holds on to.

Owns handles, which read and write a store itself or through its cache.
-/

namespace GraphStore

/-- A store, with or without the cache in front of it. -/
inductive StoreHandle where
  | direct (store : StoreRef)
  | cached (handle : CachedStore)
deriving DecidableEq, Repr

namespace StoreHandle

variable {σ : Type}

def acquire (stores : CachedStores σ) (name : String) (isCached : Bool) :
    Action σ StoreHandle := do
  if isCached then return .cached (← stores.store name)
  else return .direct (← stores.manager.openStore name)

def store : StoreHandle → StoreRef
  | direct store => store
  | cached handle => handle.store

def name (handle : StoreHandle) : String := handle.store.name

def getSlice (handle : StoreHandle) (stores : CachedStores σ) (key : Bytes) (slice : Slice) :
    Action σ (List Entry) :=
  match handle with
  | direct store => stores.manager.getSlice store key slice
  | cached handle => stores.getSlice handle key slice

/-- The slices of several rows, up to the first failure. -/
def getSlices (handle : StoreHandle) (stores : CachedStores σ) (slice : Slice) :
    List Bytes → Action σ (List KeyedRow)
  | [] => return []
  | key :: keys => do
    let entries ← handle.getSlice stores key slice
    let others ← getSlices handle stores slice keys
    return ⟨key, entries⟩ :: others

def mutate (handle : StoreHandle) (stores : CachedStores σ) (key : Bytes)
    (additions : List Entry) (deletions : List Bytes) : Action σ Unit :=
  match handle with
  | direct store => stores.manager.mutate store key additions deletions
  | cached handle => stores.mutate handle key additions deletions

/-- Writes a cell if it holds the expected value. -/
def compareAndSwap (handle : StoreHandle) (stores : CachedStores σ) (key column : Bytes)
    (expected : Option Bytes) (new : Bytes) : Action σ Bool :=
  match handle with
  | direct store => stores.manager.compareAndSwap store key column expected new
  | cached handle => stores.compareAndSwap handle key column expected new

/-- Writes rows whose keys are `count` numbers from `start` on, `stride` apart; the only
entry of a row has its key as the value. -/
def fill (handle : StoreHandle) (stores : CachedStores σ) (column : Bytes) (start stride : UInt64) :
    (count : Nat) → Action σ Unit
  | 0 => return ()
  | count + 1 => do
    let key := Bytes.ofUInt64 start
    handle.mutate stores key [⟨column, key⟩] []
    fill handle stores column (start + stride) stride count

end StoreHandle

end GraphStore
