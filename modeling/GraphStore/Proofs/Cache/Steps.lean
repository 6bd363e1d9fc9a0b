import GraphStore.Proofs.Cache.Pool

/-!
Contract: what each step of a cache does to what it holds.

Owns properties of held slices (`Cache.All`) under every step, the epochs of stripes under every
step, and reads through a cache: where the held slices are slices of the store's table, a read
answers with the slice of the table and changes the pool only (`CachedStores.getSlice_pooled`).
-/

namespace GraphStore

namespace Cache

/-! ### Held slices -/

def All (good : CachedSlice → Prop) (cache : Cache) : Prop := ∀ held ∈ cache.slices, good held

theorem all_empty (good : CachedSlice → Prop) : All good empty := nofun

theorem eq_of_find?_eq_some {cache : Cache} {key : Bytes} {slice : Slice} {held : CachedSlice}
    (found : cache.find? key slice = some held) :
    held ∈ cache.slices ∧ held.key = key ∧ held.slice = slice := by
  have matching := List.find?_some found
  rw [holds, Bool.and_eq_true, decide_eq_true_iff, decide_eq_true_iff] at matching
  exact ⟨List.mem_of_find?_eq_some found, matching⟩

/-- What a lookup finds is held for the row and the slice. -/
theorem held_of_lookup {cache after : Cache} {key : Bytes} {slice : Slice} {entries : List Entry}
    (found : cache.lookup key slice = (some entries, after)) :
    ∃ held ∈ cache.slices, held.key = key ∧ held.slice = slice ∧ held.entries = entries := by
  rw [lookup] at found
  cases held? : cache.find? key slice with
  | none =>
      rw [held?] at found
      exact absurd (Prod.mk.inj found).1 nofun
  | some held =>
      rw [held?] at found
      obtain ⟨member, ofKey, ofSlice⟩ := eq_of_find?_eq_some held?
      exact ⟨held, member, ofKey, ofSlice, Option.some.inj (Prod.mk.inj found).1⟩

section All

variable {good : CachedSlice → Prop} {cache : Cache} (all : All good cache)
include all

theorem All.of_subset {other : Cache} (subset : ∀ held ∈ other.slices, held ∈ cache.slices) :
    All good other := fun held member => all held (subset held member)

theorem All.promote {held : CachedSlice} (isGood : good held) : All good (cache.promote held) :=
  List.forall_mem_cons.2 ⟨isGood, fun other member => all other (List.mem_filter.1 member).1⟩

theorem All.lookup (key : Bytes) (slice : Slice) : All good (cache.lookup key slice).2 := by
  rw [Cache.lookup]
  cases found : cache.find? key slice with
  | some held => exact all.promote (all held (eq_of_find?_eq_some found).1)
  | none => exact all

/-- A fill keeps what holds of all slices, if it holds of the new one where it counts. -/
theorem All.fill (capacity : Nat) (stripe : Stripe) {seen : Nat} {held : CachedSlice}
    (isGood : cache.epoch stripe = seen → good held) :
    All good (cache.fill capacity stripe seen held) := by
  rw [Cache.fill]
  split
  · rename_i unmoved
    exact (all.promote (isGood unmoved)).of_subset fun other member => List.mem_of_mem_take member
  · exact all

theorem All.invalidate (stripe : Stripe) (key : Bytes) : All good (cache.invalidate stripe key) :=
  all.of_subset fun _ member => (List.mem_filter.1 member).1

end All

theorem key_ne_of_mem_invalidate {cache : Cache} {stripe : Stripe} {key : Bytes}
    {held : CachedSlice} (member : held ∈ (cache.invalidate stripe key).slices) :
    held.key ≠ key := of_decide_eq_true (List.mem_filter.1 member).2

/-! ### Epochs -/

@[simp] theorem epoch_lookup (cache : Cache) (key : Bytes) (slice : Slice) (stripe : Stripe) :
    (cache.lookup key slice).2.epoch stripe = cache.epoch stripe := by
  rw [lookup]
  split <;> rfl

@[simp] theorem epoch_fill (cache : Cache) (capacity : Nat) (filled : Stripe) (seen : Nat)
    (held : CachedSlice) (stripe : Stripe) :
    (cache.fill capacity filled seen held).epoch stripe = cache.epoch stripe := by
  rw [fill]
  split <;> rfl

/-- An invalidation moves the epoch of its stripe alone. -/
theorem epoch_invalidate (cache : Cache) (moved : Stripe) (key : Bytes) (stripe : Stripe) :
    (cache.invalidate moved key).epoch stripe =
      if stripe = moved then cache.epoch stripe + 1 else cache.epoch stripe := by
  show (cache.epochs.set moved (cache.epoch moved + 1))[stripe] = _
  rw [Fin.getElem_fin, Vector.getElem_set]
  by_cases same : stripe = moved
  · rw [if_pos (congrArg Fin.val same.symm), if_pos same, same]
  · rw [if_neg fun values => same (Fin.ext values.symm), if_neg same]
    rfl

@[simp] theorem epoch_clear (cache : Cache) (stripe : Stripe) :
    cache.clear.epoch stripe = cache.epoch stripe + 1 := by
  show (cache.epochs.map (· + 1))[stripe] = _
  rw [Fin.getElem_fin, Vector.getElem_map]
  rfl

end Cache

/-! ### Reads through a cache -/

namespace CachePool

variable {pool : CachePool} {good : CachedSlice → Prop}

theorem all_withCache {cache : Cache} (all : cache.All good) (handle : CachedStore) :
    ((pool.withCache handle cache).cache handle).All good := by
  rw [CachePool.cache, withCache, List.getElem?_set_self']
  cases pool.caches[handle.slot]? with
  | none => exact Cache.all_empty good
  | some _ => exact all

/-- After the invalidation of rows the slices of the other rows are left. -/
theorem all_invalidateAll (caching : pool.isCaching = true) (stripe : Bytes → Stripe)
    (handle : CachedStore) (keys : List Bytes)
    (all : (pool.cache handle).All fun held => held.key ∉ keys → good held) :
    ((pool.invalidateAll stripe handle keys).cache handle).All good := by
  induction keys generalizing pool with
  | nil => exact fun held member => all held member List.not_mem_nil
  | cons key keys inductionHypothesis =>
      have stillCaching : (pool.invalidate (stripe key) handle key).isCaching = true := by
        rw [isCaching, capacity_invalidate]
        exact caching
      have left : ((pool.cache handle).invalidate (stripe key) key).All
          fun held => held.key ∉ keys → good held := by
        intro held member notLater
        have other := Cache.key_ne_of_mem_invalidate member
        exact all.invalidate (stripe key) key held member
          fun listed => (List.mem_cons.1 listed).elim other notLater
      refine inductionHypothesis stillCaching ?_
      show ((pool.invalidate (stripe key) handle key).cache handle).All _
      rw [invalidate, if_pos caching]
      exact all_withCache left handle

/-- The held slice is a slice of the table. -/
def IsSliceOf (table : Table) (held : CachedSlice) : Prop :=
  held.entries = Table.slice table held.key held.slice

/-- Where slices are cached at all, those of the handle are slices of the table. -/
def Mirrors (pool : CachePool) (handle : CachedStore) (table : Table) : Prop :=
  pool.isCaching = true → (pool.cache handle).All (IsSliceOf table)

theorem mirrors_adopt {name : String} (absent : pool.find? name = none) (store : StoreRef)
    (table : Table) : (pool.adopt name store).2.Mirrors (pool.adopt name store).1 table := by
  have fresh : (pool.adopt name store).2.cache (pool.adopt name store).1 = .empty := by
    simp [adopt, absent, cache]
  rw [Mirrors, fresh]
  exact fun _ => Cache.all_empty _

/-- The handles are those of the stores, and hold slices of their tables. -/
structure Agrees (pool : CachePool) (refer : String → StoreRef) (tables : Tables) : Prop where
  refers : pool.Refers refer
  mirrors : ∀ name handle, pool.find? name = some handle →
    pool.Mirrors handle (Tables.table tables name)

end CachePool

namespace CachedStores

variable {σ : Type} {manager : Manager σ}

section Reading

variable (stripe : Bytes → Stripe) {pool : CachePool} {state : σ} {handle : CachedStore}
  {key : Bytes} {slice : Slice}

/-- What a lookup answers: the entries, or the epoch of the row's stripe. -/
def lookedUp (key : Bytes) : Option (List Entry) × Cache → Except Nat (List Entry)
  | (some entries, _) => .ok entries
  | (none, cache) => .error (cache.epoch (stripe key))

theorem lookup_pooled (handle : CachedStore) (key : Bytes) (slice : Slice) (pool : CachePool)
    (state : σ) :
    (pooled manager stripe).lookup handle key slice (pool, state) =
      (.ok (lookedUp stripe key ((pool.cache handle).lookup key slice)),
        (pool.withCache handle ((pool.cache handle).lookup key slice).2, state)) := by
  have viewed : (pooled manager stripe).pool.view (pool, state) = pool := rfl
  rw [lookup, Action.bind_of_ok (Part.read_apply _ _), viewed]
  rcases (pool.cache handle).lookup key slice with ⟨_ | entries, cache⟩ <;> rfl

/-- Where nothing is cached a read goes to the store. -/
theorem getSlice_of_off (off : pool.isCaching = false) :
    (pooled manager stripe).getSlice handle key slice (pool, state) =
      ((manager.getSlice handle.store key slice state).1,
        (pool, (manager.getSlice handle.store key slice state).2)) := by
  rw [getSlice, Action.bind_of_ok (Part.read_apply _ _)]
  show (if pool.isCaching then _ else _ : Action _ _) _ = _
  rw [off]
  rfl

/-- A held slice is answered from the cache. -/
theorem getSlice_of_hit (caching : pool.isCaching = true) {entries : List Entry} {cache : Cache}
    (found : (pool.cache handle).lookup key slice = (some entries, cache)) :
    (pooled manager stripe).getSlice handle key slice (pool, state) =
      (.ok entries, (pool.withCache handle cache, state)) := by
  have looked : (pooled manager stripe).lookup handle key slice (pool, state) =
      (.ok (.ok entries), (pool.withCache handle cache, state)) := by
    rw [lookup_pooled, found]
    rfl
  rw [getSlice, Action.bind_of_ok (Part.read_apply _ _)]
  show (if pool.isCaching then _ else _ : Action _ _) _ = _
  rw [caching]
  exact Action.bind_of_ok looked

/-- A slice that is not held is read from the store and filled in. -/
theorem getSlice_of_miss (caching : pool.isCaching = true) {entries : List Entry} {cache : Cache}
    (absent : (pool.cache handle).lookup key slice = (none, cache))
    (reads : manager.getSlice handle.store key slice state = (.ok entries, state)) :
    (pooled manager stripe).getSlice handle key slice (pool, state) =
      (.ok entries, ((pool.withCache handle cache).withCache handle
        (((pool.withCache handle cache).cache handle).fill pool.capacity (stripe key)
          (cache.epoch (stripe key)) ⟨key, slice, entries⟩), state)) := by
  have looked : (pooled manager stripe).lookup handle key slice (pool, state) =
      (.ok (.error (cache.epoch (stripe key))), (pool.withCache handle cache, state)) := by
    rw [lookup_pooled, absent]
    rfl
  have onWhole : (pooled manager stripe).manager.getSlice handle.store key slice
      (pool.withCache handle cache, state) =
        (.ok entries, (pool.withCache handle cache, state)) := by
    show ((manager.getSlice handle.store key slice state).1,
      (pool.withCache handle cache, (manager.getSlice handle.store key slice state).2)) = _
    rw [reads]
  rw [getSlice, Action.bind_of_ok (Part.read_apply _ _)]
  show (if pool.isCaching then _ else _ : Action _ _) _ = _
  rw [caching]
  refine (Action.bind_of_ok looked).trans ?_
  refine (Action.bind_of_ok onWhole).trans ?_
  exact Action.bind_of_ok rfl

end Reading

/-- A read through a cache that mirrors the table of the store answers as the store would; only
what is cached may change, and it still mirrors the table. -/
theorem getSlice_pooled (stripe : Bytes → Stripe) {pool : CachePool} {state : σ}
    {handle : CachedStore} {table : Table}
    (reads : ∀ key slice, manager.getSlice handle.store key slice state =
      (.ok (Table.slice table key slice), state))
    (mirrors : pool.Mirrors handle table) (key : Bytes) (slice : Slice) :
    ∃ after, (pooled manager stripe).getSlice handle key slice (pool, state) =
        (.ok (Table.slice table key slice), (after, state)) ∧
      after.handles = pool.handles ∧ after.capacity = pool.capacity ∧
      after.Mirrors handle table := by
  cases caching : pool.isCaching with
  | false =>
      refine ⟨pool, ?_, rfl, rfl, mirrors⟩
      rw [getSlice_of_off stripe caching, reads]
  | true =>
      have mirrored := (mirrors caching).lookup key slice
      rcases looked : (pool.cache handle).lookup key slice with ⟨_ | entries, cache⟩
      · rw [looked] at mirrored
        have lookedMirrored : ((pool.withCache handle cache).cache handle).All
            (CachePool.IsSliceOf table) := CachePool.all_withCache mirrored handle
        have isSlice : CachePool.IsSliceOf table ⟨key, slice, Table.slice table key slice⟩ := rfl
        refine ⟨_, getSlice_of_miss stripe caching looked (reads key slice), rfl, rfl, fun _ => ?_⟩
        exact CachePool.all_withCache (lookedMirrored.fill _ _ fun _ => isSlice) handle
      · rw [looked] at mirrored
        obtain ⟨held, member, rfl, rfl, rfl⟩ := Cache.held_of_lookup looked
        have isSlice : CachePool.IsSliceOf table held := mirrors caching held member
        refine ⟨pool.withCache handle cache, ?_, rfl, rfl,
          fun _ => CachePool.all_withCache mirrored handle⟩
        exact (getSlice_of_hit stripe caching looked).trans (by rw [← isSlice])

end CachedStores

end GraphStore
