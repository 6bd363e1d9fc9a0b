import GraphStore.Cache.Basic
import GraphStore.Manager.Basic
import GraphStore.OrderedMap

/-!
Contract: the caches of a backend, by store name.

Owns the cached handles of stores. A handle pairs a store with the slot of its cache;
clearing the pool empties the caches and forgets the handles, which stay usable for
whoever still has one.
-/

namespace GraphStore

structure CachedStore where
  store : StoreRef
  slot : Nat
deriving DecidableEq, Repr

/-- The caches made so far, and the handles by store name. -/
structure CachePool where
  capacity : Nat
  caches : List Cache
  handles : OrderedMap String CachedStore
deriving DecidableEq

namespace CachePool

/-- A pool without handles; a capacity of zero turns caching off. -/
def empty (capacity : Nat) : CachePool := ⟨capacity, [], .empty⟩

/-- Whether slices are cached at all. -/
def isCaching (pool : CachePool) : Bool := 0 < pool.capacity

def find? (pool : CachePool) (name : String) : Option CachedStore := pool.handles.find? name

/-- The handle of a store name after acquiring a store for it: the one that the pool
already has, or a new one with an empty cache. -/
def adopt (pool : CachePool) (name : String) (store : StoreRef) : CachedStore × CachePool :=
  match pool.find? name with
  | some handle => (handle, pool)
  | none =>
    let handle : CachedStore := ⟨store, pool.caches.length⟩
    (handle, { pool with
      caches := pool.caches ++ [.empty]
      handles := pool.handles.insert name handle })

def cache (pool : CachePool) (handle : CachedStore) : Cache :=
  (pool.caches[handle.slot]?).getD .empty

def withCache (pool : CachePool) (handle : CachedStore) (cache : Cache) : CachePool :=
  { pool with caches := pool.caches.set handle.slot cache }

/-- Drops the slices of a row. -/
def invalidate (pool : CachePool) (stripe : Stripe) (handle : CachedStore) (key : Bytes) :
    CachePool :=
  if pool.isCaching then
    pool.withCache handle ((pool.cache handle).invalidate stripe key)
  else pool

def clearCache (pool : CachePool) (handle : CachedStore) : CachePool :=
  if pool.isCaching then pool.withCache handle (pool.cache handle).clear else pool

/-- Empties the caches of all handles and forgets the handles. -/
def clear (pool : CachePool) : CachePool :=
  { pool.handles.values.foldl clearCache pool with handles := .empty }

end CachePool

end GraphStore
