import GraphStore.Cache.Pool
import GraphStore.Part

/-!
Contract: stores read and written through caches.

Owns the operations on cached handles over any manager. A read asks the cache, then
the store, and fills the cache unless a write came in between. A write goes to the
store and then invalidates the row, whether the store took it or not. Scans of keys
are not cached.
-/

namespace GraphStore

/-- A manager together with the pool of caches in front of it. -/
structure CachedStores (σ : Type) where
  manager : Manager σ
  pool : Part σ CachePool
  stripe : Bytes → Stripe

namespace CachedStores

variable {σ : Type}

/-- The handle of a store, acquired from the manager when the pool has none. -/
def store (stores : CachedStores σ) (name : String) : Action σ CachedStore := do
  match (← stores.pool.read).find? name with
  | some handle => return handle
  | none =>
    let store ← stores.manager.openStore name
    let (handle, pool) := (← stores.pool.read).adopt name store
    stores.pool.change fun _ => pool
    return handle

/-- The cached entries of a slice, or the epoch of the row's stripe. -/
def lookup (stores : CachedStores σ) (handle : CachedStore) (key : Bytes) (slice : Slice) :
    Action σ (Except Nat (List Entry)) := do
  let pool ← stores.pool.read
  let cache := pool.cache handle
  let (found, cache) := cache.lookup key slice
  stores.pool.change fun _ => pool.withCache handle cache
  match found with
  | some entries => return .ok entries
  | none => return .error (cache.epoch (stores.stripe key))

/-- Fills the cache with a slice read after a lookup that saw the given epoch. -/
def fill (stores : CachedStores σ) (handle : CachedStore) (seen : Nat) (held : CachedSlice) :
    Action σ Unit :=
  stores.pool.change fun pool =>
    pool.withCache handle
      ((pool.cache handle).fill pool.capacity (stores.stripe held.key) seen held)

/-- The entries of a row in a slice. -/
def getSlice (stores : CachedStores σ) (handle : CachedStore) (key : Bytes) (slice : Slice) :
    Action σ (List Entry) := do
  if (← stores.pool.read).isCaching then
    match ← stores.lookup handle key slice with
    | .ok entries => return entries
    | .error seen =>
      let entries ← stores.manager.getSlice handle.store key slice
      stores.fill handle seen ⟨key, slice, entries⟩
      return entries
  else stores.manager.getSlice handle.store key slice

/-- Drops the cached slices of a row. -/
def invalidate (stores : CachedStores σ) (handle : CachedStore) (key : Bytes) :
    Action σ Unit :=
  stores.pool.change fun pool => pool.invalidate (stores.stripe key) handle key

/-- Runs a write of a row and invalidates the row whatever its outcome. -/
def writing {α : Type} (stores : CachedStores σ) (handle : CachedStore) (key : Bytes)
    (write : Action σ α) : Action σ α := do
  let outcome ← write.outcome
  stores.invalidate handle key
  Action.ofResult outcome

def mutate (stores : CachedStores σ) (handle : CachedStore) (key : Bytes)
    (additions : List Entry) (deletions : List Bytes) : Action σ Unit :=
  stores.writing handle key (stores.manager.mutate handle.store key additions deletions)

/-- Writes a cell if it holds the expected value. -/
def compareAndSwap (stores : CachedStores σ) (handle : CachedStore) (key column : Bytes)
    (expected : Option Bytes) (new : Bytes) : Action σ Bool :=
  stores.writing handle key
    (stores.manager.compareAndSwap handle.store key column expected new)

def clearCache (stores : CachedStores σ) (handle : CachedStore) : Action σ Unit :=
  stores.pool.change fun pool => pool.clearCache handle

/-- Drops the data of every store, forgetting caches first. -/
def clearStorage (stores : CachedStores σ) : Action σ Unit := do
  stores.pool.change CachePool.clear
  stores.manager.clearStorage

end CachedStores

end GraphStore
