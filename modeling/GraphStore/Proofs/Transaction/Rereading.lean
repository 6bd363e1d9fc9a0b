import GraphStore.Proofs.Cache.Steps
import GraphStore.Proofs.Manager.Batching
import GraphStore.Proofs.Transaction.Flush

/-!
Contract: what a read shows behind a commit in batches.

Owns the commit and the read that follows it, with handles of any generation in the pool: the
batches reach the current tables (`Transaction.follows_flush`), the rows are dropped from the caches
(`CachePool.Flushed`), and a transaction begun behind the commit reads each of them from the table
of the handle that the pool has for its store (`Transaction.showsRow_of_committed`).
-/

namespace GraphStore

/-! ### Pools -/

namespace CachePool

/-- The store that the pool has for a name, or else the one that opening it gives. -/
def resolve (pool : CachePool) (refer : String → StoreRef) (name : String) : StoreRef :=
  ((pool.find? name).map CachedStore.store).getD (refer name)

/-- No slice of the row is cached for the handle. -/
def Lacks (pool : CachePool) (handle : CachedStore) (key : Bytes) : Prop :=
  pool.isCaching = true → (pool.cache handle).All fun held => held.key ≠ key

section Resolving

variable {pool : CachePool} {refer : String → StoreRef} {name : String} {handle : CachedStore}

theorem resolve_of_found (found : pool.find? name = some handle) :
    pool.resolve refer name = handle.store := by
  rw [resolve, found]
  rfl

theorem resolve_of_absent (absent : pool.find? name = none) :
    pool.resolve refer name = refer name := by
  rw [resolve, absent]
  rfl

theorem store_adopt : (pool.adopt name (refer name)).1.store = pool.resolve refer name := by
  rw [adopt]
  cases found : pool.find? name with
  | some handle => exact (resolve_of_found found).symm
  | none => exact (resolve_of_absent found).symm

/-- A handle that is new stands beside the others. -/
theorem find?_adopt_of_absent (absent : pool.find? name = none) (store : StoreRef)
    (other : String) :
    (pool.adopt name store).2.find? other =
      if other = name then some (pool.adopt name store).1 else pool.find? other := by
  rw [adopt, absent]
  exact OrderedMap.find?_insert _ _ _ _

theorem find?_adopt_self (store : StoreRef) :
    (pool.adopt name store).2.find? name = some (pool.adopt name store).1 := by
  cases found : pool.find? name with
  | some handle =>
      rw [adopt, found]
      exact found
  | none => rw [find?_adopt_of_absent found, if_pos rfl]

theorem find?_adopt_of_found {other : String} (found : pool.find? other = some handle)
    (store : StoreRef) : (pool.adopt name store).2.find? other = some handle := by
  cases held : pool.find? name with
  | some own =>
      rw [adopt, held]
      exact found
  | none =>
      have different : other ≠ name := by
        rintro rfl
        rw [held] at found
        cases found
      rw [find?_adopt_of_absent held, if_neg different, found]

/-- A handle that is found has been there, or it wraps the adopted store. -/
theorem found_of_adopt {other : String} {store : StoreRef}
    (found : (pool.adopt name store).2.find? other = some handle) :
    pool.find? other = some handle ∨ other = name ∧ handle.store = store := by
  cases held : pool.find? name with
  | some own =>
      rw [adopt, held] at found
      exact Or.inl found
  | none =>
      rw [find?_adopt_of_absent held] at found
      split at found
      · rename_i same
        rw [adopt, held] at found
        exact Or.inr ⟨same, congrArg CachedStore.store (Option.some.inj found).symm⟩
      · exact Or.inl found

theorem resolve_adopt : (pool.adopt name (refer name)).2.resolve refer = pool.resolve refer := by
  funext other
  cases absent : pool.find? name with
  | some handle => rw [adopt, absent]
  | none =>
      rw [resolve, find?_adopt_of_absent absent]
      by_cases same : other = name
      · subst same
        rw [if_pos rfl]
        exact store_adopt
      · rw [if_neg same, resolve]

end Resolving

section Lacking

variable {pool : CachePool} {handle : CachedStore} {key : Bytes}

/-- Another cache for one handle leaves those of the others. -/
theorem all_cache_withCache {good : CachedSlice → Prop} (all : (pool.cache handle).All good)
    {other : CachedStore} {cache : Cache} (own : other.slot = handle.slot → cache.All good) :
    ((pool.withCache other cache).cache handle).All good := by
  rw [CachePool.cache, withCache]
  by_cases same : other.slot = handle.slot
  · rw [same, List.getElem?_set_self']
    cases pool.caches[handle.slot]? with
    | none => exact Cache.all_empty good
    | some _ => exact own same
  · rw [List.getElem?_set_ne same]
    exact all

theorem lacks_invalidateAll {keys : List Bytes} (member : key ∈ keys) (stripe : Bytes → Stripe) :
    (pool.invalidateAll stripe handle keys).Lacks handle key := by
  intro caching
  rw [isCaching, capacity_invalidateAll] at caching
  exact all_invalidateAll caching stripe handle keys
    fun held _ notListed same => notListed (same.symm ▸ member)

namespace Lacks

variable (lacks : pool.Lacks handle key)
include lacks

theorem invalidate (stripe : Stripe) (other : CachedStore) (dropped : Bytes) :
    (pool.invalidate stripe other dropped).Lacks handle key := by
  intro caching
  rw [isCaching, capacity_invalidate] at caching
  have all := lacks caching
  replace caching : pool.isCaching = true := caching
  rw [CachePool.invalidate, if_pos caching]
  refine all_cache_withCache all fun same => ?_
  have sameCache : pool.cache other = pool.cache handle := by rw [cache, cache, same]
  rw [sameCache]
  exact all.invalidate stripe dropped

theorem invalidateAll (stripe : Bytes → Stripe) (other : CachedStore) (keys : List Bytes) :
    (pool.invalidateAll stripe other keys).Lacks handle key := by
  induction keys generalizing pool with
  | nil => exact lacks
  | cons dropped keys inductionHypothesis =>
      exact inductionHypothesis (lacks.invalidate (stripe dropped) other dropped)

/-- Acquiring a handle caches no slice. -/
theorem adopt (name : String) (store : StoreRef) :
    (pool.adopt name store).2.Lacks handle key := by
  rw [CachePool.adopt]
  cases pool.find? name with
  | some own => exact lacks
  | none =>
      intro caching
      show (((pool.caches ++ [Cache.empty])[handle.slot]?).getD .empty).All _
      by_cases made : handle.slot < pool.caches.length
      · rw [List.getElem?_append_left made]
        exact lacks caching
      · rw [List.getElem?_append_right (Nat.le_of_not_lt made)]
        cases handle.slot - pool.caches.length <;> exact Cache.all_empty _

end Lacks

end Lacking

/-! ### What a flush leaves in the pool -/

/-- The later pool has the handles of the earlier one, resolves names alike, and holds no slice of
the rows of the stores. -/
structure Flushed (pool after : CachePool) (refer : String → StoreRef)
    (stores : List (String × OrderedMap Bytes Mutation)) : Prop where
  kept : ∀ name handle, pool.find? name = some handle → after.find? name = some handle
  resolve : after.resolve refer = pool.resolve refer
  lacking : ∀ handle key, pool.Lacks handle key → after.Lacks handle key
  dropped : ∀ store ∈ stores, ∀ key ∈ store.2.keys, ∃ handle,
    after.find? store.1 = some handle ∧ after.Lacks handle key

namespace Flushed

variable {pool middle after : CachePool} {refer : String → StoreRef}

theorem refl (pool : CachePool) (refer : String → StoreRef) : pool.Flushed pool refer [] :=
  ⟨fun _ _ found => found, rfl, fun _ _ lacks => lacks, nofun⟩

theorem trans {front back : List (String × OrderedMap Bytes Mutation)}
    (first : pool.Flushed middle refer front) (second : middle.Flushed after refer back) :
    pool.Flushed after refer (front ++ back) where
  kept name handle found := second.kept name handle (first.kept name handle found)
  resolve := second.resolve.trans first.resolve
  lacking handle key lacks := second.lacking handle key (first.lacking handle key lacks)
  dropped store member key listed := by
    rcases List.mem_append.1 member with inFront | inBack
    · obtain ⟨handle, found, lacks⟩ := first.dropped store inFront key listed
      exact ⟨handle, second.kept _ handle found, second.lacking handle key lacks⟩
    · exact second.dropped store inBack key listed

end Flushed

theorem flushed_invalidateAll (pool : CachePool) (stripe : Bytes → Stripe)
    (refer : String → StoreRef) (name : String) (rows : OrderedMap Bytes Mutation) :
    pool.Flushed ((pool.adopt name (refer name)).2.invalidateAll stripe
      (pool.adopt name (refer name)).1 rows.keys) refer [(name, rows)] where
  kept other handle found := by
    rw [find?_invalidateAll]
    exact find?_adopt_of_found found (refer name)
  resolve := by
    funext other
    rw [CachePool.resolve, find?_invalidateAll]
    exact congrFun resolve_adopt other
  lacking handle key lacks := (lacks.adopt name (refer name)).invalidateAll stripe _ rows.keys
  dropped store member key listed := by
    cases List.mem_singleton.1 member
    refine ⟨_, ?_, lacks_invalidateAll listed stripe⟩
    rw [find?_invalidateAll]
    exact find?_adopt_self (refer name)

end CachePool

/-! ### Reads of rows that are not cached -/

namespace CachedStores

variable {σ τ : Type} {manager : Manager σ} (backend : BatchBackend manager)
  (stripe : Bytes → Stripe) {pool : CachePool} {state : σ}

def ShowsRow (stores : CachedStores τ) (whole : τ) (name : String) (key : Bytes) (row : Row) :
    Prop :=
  ∀ bufferSize slice, ∃ after,
    (Transaction.start bufferSize).getSlice stores name key slice whole =
      (.ok (Row.slice row slice), after)

/-- The store of an acquired handle. -/
theorem store_resolves {name : String} {handle : CachedStore} {after : CachePool × σ}
    (acquired : (pooled manager stripe).store name (pool, state) = (.ok handle, after)) :
    handle.store = pool.resolve (backend.stores state).refer name := by
  cases found : pool.find? name with
  | some held =>
      rw [store_of_found stripe found] at acquired
      rw [CachePool.resolve_of_found found, Except.ok.inj (Prod.mk.inj acquired).1]
  | none =>
      rcases backend.opens state name with opened | ⟨failure, failed⟩
      · rw [store_of_opened stripe found opened] at acquired
        rw [← Except.ok.inj (Prod.mk.inj acquired).1, CachePool.store_adopt]
      · rw [store_of_unopened stripe found failed] at acquired
        exact nomatch (Prod.mk.inj acquired).1

section Open

variable (isOpen : backend.isOpen state = true)
include isOpen

theorem store_of_open (name : String) :
    (pooled manager stripe).store name (pool, state) =
      (.ok (pool.adopt name ((backend.stores state).refer name)).1,
        ((pool.adopt name ((backend.stores state).refer name)).2, state)) := by
  cases found : pool.find? name with
  | some handle =>
      rw [store_of_found stripe found, CachePool.adopt, found]
  | none => exact store_of_opened stripe found (backend.opens_of_open state name isOpen)

/-- A slice that is not cached is read through the handle. -/
theorem getSlice_of_lacks {handle : CachedStore} {key : Bytes} (lacks : pool.Lacks handle key)
    (slice : Slice) :
    ∃ read, (pooled manager stripe).getSlice handle key slice (pool, state) =
      (.ok (Table.slice ((backend.stores state).table handle.store) key slice), (read, state)) := by
  have reads := backend.reads_of_open state handle.store key slice isOpen
  cases caching : pool.isCaching with
  | false =>
      refine ⟨pool, ?_⟩
      rw [getSlice_of_off stripe caching, reads]
  | true =>
      rcases looked : (pool.cache handle).lookup key slice with ⟨_ | entries, cache⟩
      · exact ⟨_, getSlice_of_miss stripe caching looked reads⟩
      · obtain ⟨held, member, ofKey, -⟩ := Cache.held_of_lookup looked
        exact absurd ofKey (lacks caching held member)

theorem showsRow_of_lacks {name : String} {handle : CachedStore} {key : Bytes}
    (found : pool.find? name = some handle) (lacks : pool.Lacks handle key) :
    (pooled manager stripe).ShowsRow (pool, state) name key
      (Table.row ((backend.stores state).table handle.store) key) := by
  intro bufferSize slice
  obtain ⟨read, answered⟩ := getSlice_of_lacks backend stripe isOpen lacks slice
  refine ⟨_, (Action.bind_of_ok rfl).trans ((Action.bind_of_ok (store_of_found stripe found)).trans
    answered)⟩

end Open

end CachedStores

/-! ### Commits -/

namespace Transaction

theorem mutationOf_of_staged {transaction : Transaction} {name : String} {key : Bytes}
    {mutation : Mutation} (staged : transaction.staged? name key = some mutation) :
    StoreMutations.mutationOf transaction.pending name key = mutation :=
  congrArg (fun staged => staged.getD Mutation.empty) staged

open CachedStores

variable {σ : Type} {manager : Manager σ} (backend : BatchBackend manager)
  (stripe : Bytes → Stripe) (size : Nat)

/-- What shows of the backend beside a pool. -/
abbrev pooledProgress : Progress (CachePool × σ) RowChange :=
  Generations.progress (fun world => backend.stores world.2) (fun world => backend.isOpen world.2)
    backend.reliable

/-- The rows of a store go to its current table, whichever handle there is. -/
theorem follows_writeStore (name : String) (store : StoreRef) (rows : OrderedMap Bytes Mutation)
    (state : σ) :
    (Generations.progress backend.stores backend.isOpen backend.reliable).Follows
      (writeStore manager size name store rows.entries) state
      (StoreCall.batchRows name rows.entries) := by
  rw [writeStore, if_pos backend.batching]
  exact follows_flushBatches_chunks backend.follows size name rows state

theorem follows_flushStore (name : String) (rows : OrderedMap Bytes Mutation)
    {world : CachePool × σ} (isOpen : backend.isOpen world.2 = true) :
    (pooledProgress backend).Follows (flushStore (pooled manager stripe) size name rows) world
        (StoreCall.batchRows name rows.entries) ∧
      world.1.Flushed (flushStore (pooled manager stripe) size name rows world).2.1
        (backend.stores world.2).refer [(name, rows)] := by
  obtain ⟨pool, state⟩ := world
  have acquired : (pooled manager stripe).store name (pool, state) = _ :=
    store_of_open backend stripe isOpen name
  obtain ⟨outcome, after, front, written, result⟩ :=
    follows_writeStore backend size name _ rows state
  have flushed := flushStore_pooled stripe size name rows acquired written
  refine ⟨⟨outcome, _, front, flushed, result⟩, ?_⟩
  rw [flushed]
  exact pool.flushed_invalidateAll stripe _ name rows

/-- A flush through the pool follows its row changes, and one that succeeds drops their rows from
the caches. -/
theorem follows_flush (stores : List (String × OrderedMap Bytes Mutation))
    {world : CachePool × σ} (isOpen : backend.isOpen world.2 = true) :
    (pooledProgress backend).Follows (flush (pooled manager stripe) size stores) world
        (stores.flatMap fun store => StoreCall.batchRows store.1 store.2.entries) ∧
      ∀ after, flush (pooled manager stripe) size stores world = (.ok (), after) →
        world.1.Flushed after.1 (backend.stores world.2).refer stores := by
  induction stores generalizing world with
  | nil =>
      refine ⟨.nothing world, fun after ran => ?_⟩
      cases ran
      exact .refl _ _
  | cons store stores inductionHypothesis =>
      obtain ⟨first, dropped⟩ := follows_flushStore backend stripe size store.1 store.2 isOpen
      have others : ∀ middle : CachePool × σ,
          (pooledProgress backend).shown middle = (pooledProgress backend).advance
            (StoreCall.batchRows store.1 store.2.entries)
            ((pooledProgress backend).shown world) →
          backend.isOpen middle.2 = true ∧
            (backend.stores middle.2).refer = (backend.stores world.2).refer :=
        fun middle shown => ⟨(congrArg Prod.snd shown).trans isOpen,
          congrArg (fun shown => shown.1.refer) shown⟩
      refine ⟨first.andThen fun middle _ shown => (inductionHypothesis (others middle shown).1).1,
        fun after ran => ?_⟩
      rcases flushed : flushStore (pooled manager stripe) size store.1 store.2 world with
        ⟨failure | done, middle⟩
      · have stopped : flush (pooled manager stripe) size (store :: stores) world =
            (.error failure, middle) :=
          Action.bind_of_error flushed
        exact nomatch congrArg Prod.fst (stopped.symm.trans ran)
      · obtain ⟨stillOpen, refer⟩ := others middle (first.shown_of_ok flushed)
        have rest : flush (pooled manager stripe) size stores middle = (.ok (), after) :=
          (Action.bind_of_ok flushed).symm.trans ran
        have back := (inductionHypothesis stillOpen).2 after rest
        rw [refer] at back
        rw [flushed] at dropped
        exact dropped.trans back

variable {pool : CachePool} {state : σ} {after : CachePool × σ} {transaction ended : Transaction}

/-- Behind a commit that has succeeded, each of its rows is read from the table of the handle that
the pool has had for the store, or has got from the manager. -/
theorem showsRow_of_committed (isOpen : backend.isOpen state = true)
    (running : transaction.state = .running)
    (committed : transaction.commit (pooled manager stripe) (pool, state) =
      ((.ok (), ended), after))
    {name : String} {key : Bytes} {mutation : Mutation}
    (staged : transaction.staged? name key = some mutation) :
    backend.stores after.2 =
        (backend.stores state).applyAll (StoreMutations.rowChanges transaction.pending) ∧
      (pooled manager stripe).ShowsRow after name key
        (Table.row ((backend.stores after.2).table
          (pool.resolve (backend.stores state).refer name)) key) := by
  have openWorld : backend.isOpen (pool, state).2 = true := isOpen
  obtain ⟨follows, leaves⟩ := follows_flush backend stripe transaction.bufferSize
    transaction.pending.entries openWorld
  rw [commit_of_running running] at committed
  rcases ran : flush (pooled manager stripe) transaction.bufferSize transaction.pending.entries
    (pool, state) with ⟨outcome, left⟩
  rw [ran] at committed
  obtain ⟨rfl, -⟩ := Prod.mk.inj (Prod.mk.inj committed).1
  obtain rfl : left = after := (Prod.mk.inj committed).2
  have shown := follows.shown_of_ok ran
  have flushed := leaves left ran
  refine ⟨congrArg Prod.fst shown, ?_⟩
  obtain ⟨rows, pending, ofKey⟩ := Option.bind_eq_some_iff.1 staged
  have member : (name, rows) ∈ transaction.pending.entries := OrderedMap.find?_eq_some_iff.1 pending
  have listed : key ∈ rows.keys := List.mem_map.2 ⟨_, OrderedMap.find?_eq_some_iff.1 ofKey, rfl⟩
  obtain ⟨handle, found, lacks⟩ := flushed.dropped (name, rows) member key listed
  have stillOpen : backend.isOpen left.2 = true := (congrArg Prod.snd shown).trans isOpen
  have resolved : pool.resolve (backend.stores state).refer name = handle.store := by
    rw [← flushed.resolve]
    exact CachePool.resolve_of_found found
  rw [resolved]
  exact showsRow_of_lacks backend stripe stillOpen found lacks

end Transaction

end GraphStore
