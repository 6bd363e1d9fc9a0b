import GraphStore.Proofs.Cache.Interleaving
import GraphStore.Proofs.Cache.Sequential

/-!
Contract: the calls through a cache take the steps that are atomic.

Owns the tie between the operations on cached stores and `CacheWorld.Step`. A call with nothing in
between is a run of steps of one read or of one writer; it leads from a world that stands for pool
and backend to one that stands for what the call leaves (`CachedStores.Ready.steps_perform`).
-/

namespace GraphStore

namespace CacheWorld

variable {capacity : Nat} {stripe : Bytes → Stripe}

theorem Step.once {world after : CacheWorld} (step : Step capacity stripe world after) :
    Steps capacity stripe world after := .tail .refl step

/-! ### One read -/

section Reading

variable (world : CacheWorld) (key : Bytes) (slice : Slice)

def reading (phase : ReadPhase) : CacheWorld :=
  { world with readers := world.readers ++ [⟨key, slice, world.returned, phase⟩] }

theorem last_reading (phase : ReadPhase) :
    (world.reading key slice phase).readers[world.readers.length]? =
      some ⟨key, slice, world.returned, phase⟩ :=
  List.getElem?_concat_length

theorem readerTo_reading (phase next : ReadPhase) :
    (world.reading key slice phase).readerTo world.readers.length
      ⟨key, slice, world.returned, phase⟩ next = world.reading key slice next := by
  rw [readerTo, reading, List.set_append_right _ _ (Nat.le_refl _), Nat.sub_self]
  rfl

theorem steps_bypassed (off : capacity = 0) :
    Steps capacity stripe (world.begun key slice)
      (world.reading key slice (.answered (Table.slice world.table key slice))) := by
  have bypassed : Step capacity stripe _ _ := .bypassed off (world.last_reading key slice _) rfl
  have loaded : Step capacity stripe _ _ :=
    .loaded (world.last_reading key slice (.missed none)) rfl
  have handedOn : Step capacity stripe _ _ := .handedOn (world.last_reading key slice
    (.loaded none (Table.slice world.table key slice))) rfl
  rw [readerTo_reading] at bypassed loaded handedOn
  exact (bypassed.once.tail loaded).tail handedOn

theorem steps_hit (caching : 0 < capacity) {entries : List Entry} {cache : Cache}
    (found : world.cache.lookup key slice = (some entries, cache)) :
    Steps capacity stripe (world.begun key slice)
      { world.reading key slice (.answered entries) with cache := cache } := by
  have hit : Step capacity stripe _ _ := .hit caching (world.last_reading key slice _) rfl found
  rw [readerTo_reading] at hit
  exact hit.once

theorem steps_loaded (caching : 0 < capacity) {cache : Cache}
    (absent : world.cache.lookup key slice = (none, cache)) :
    Steps capacity stripe (world.begun key slice)
      ({ world with cache := cache }.reading key slice
        (.loaded (some (cache.epoch (stripe key))) (Table.slice world.table key slice))) := by
  let looked : CacheWorld := { world with cache := cache }
  have missed : Step capacity stripe _ _ :=
    .missed caching (world.last_reading key slice _) rfl absent
  have loaded : Step capacity stripe _ _ := .loaded (looked.last_reading key slice
    (.missed (some (cache.epoch (stripe key))))) rfl
  rw [readerTo_reading] at missed loaded
  exact missed.once.tail loaded

/-- A read that misses goes on to the store and answers. -/
theorem steps_missed (caching : 0 < capacity) {cache : Cache}
    (absent : world.cache.lookup key slice = (none, cache)) :
    Steps capacity stripe (world.begun key slice)
      { world.reading key slice (.answered (Table.slice world.table key slice)) with
        cache := cache.fill capacity (stripe key) (cache.epoch (stripe key))
          ⟨key, slice, Table.slice world.table key slice⟩ } := by
  let looked : CacheWorld := { world with cache := cache }
  have filled : Step capacity stripe _ _ := .filled (looked.last_reading key slice
    (.loaded (some (cache.epoch (stripe key))) (Table.slice world.table key slice))) rfl
  rw [readerTo_reading] at filled
  exact (world.steps_loaded key slice caching absent).tail filled

end Reading

/-! ### One writer -/

section Writing

variable (world : CacheWorld)

def withWriter (writer : CacheWriter) : CacheWorld :=
  { world with writers := world.writers ++ [writer] }

theorem last_withWriter (writer : CacheWriter) :
    (world.withWriter writer).writers[world.writers.length]? = some writer :=
  List.getElem?_concat_length

theorem writerTo_withWriter (writer next : CacheWriter) :
    (world.withWriter writer).writerTo world.writers.length next = world.withWriter next := by
  rw [writerTo, withWriter, List.set_append_right _ _ (Nat.le_refl _), Nat.sub_self]
  rfl

def changeTable (table : Table) (changes : List RowChange) : Table :=
  changes.foldl (fun table change =>
    Table.change table change.key change.additions change.deletions) table

/-- The tables that changes of rows find, one after the other. -/
def tablesBefore (table : Table) : List RowChange → List Table
  | [] => []
  | change :: changes => table :: tablesBefore (changeTable table [change]) changes

def changed (changes : List RowChange) : CacheWorld :=
  { world with
    past := world.past ++ tablesBefore world.table changes
    table := changeTable world.table changes }

/-- The writes that row changes are when they begin at the given state. -/
def writesFrom (version : Nat) : List RowChange → List RowWrite
  | [] => []
  | change :: changes => ⟨change.key, version + 1⟩ :: writesFrom (version + 1) changes

theorem mem_writesFrom {version : Nat} {changes : List RowChange} {change : RowChange}
    (member : change ∈ changes) :
    ∃ write ∈ writesFrom version changes, write.key = change.key ∧ version < write.version := by
  induction changes generalizing version with
  | nil => exact absurd member List.not_mem_nil
  | cons first changes inductionHypothesis =>
      rcases List.mem_cons.1 member with rfl | later
      · exact ⟨_, List.mem_cons_self, rfl, Nat.lt_succ_self version⟩
      · obtain ⟨write, listed, ofKey, younger⟩ := inductionHypothesis later
        exact ⟨write, List.mem_cons_of_mem _ listed, ofKey, Nat.lt_of_succ_lt younger⟩

theorem steps_wrote (keys : List Bytes) {changes : List RowChange}
    (own : ∀ change ∈ changes, change.key ∈ keys) (writes : List RowWrite) :
    Steps capacity stripe (world.withWriter ⟨keys, writes, .writing⟩)
      ((world.changed changes).withWriter
        ⟨keys, writes ++ writesFrom world.now changes, .writing⟩) := by
  induction changes generalizing world writes with
  | nil =>
      rw [writesFrom, changed, tablesBefore, List.append_nil, List.append_nil]
      exact .refl
  | cons change changes inductionHypothesis =>
      obtain ⟨ownFirst, ownOthers⟩ := List.forall_mem_cons.1 own
      have wrote : Step capacity stripe _ _ :=
        .wrote (world.last_withWriter ⟨keys, writes, .writing⟩) rfl ownFirst
          (Row.change (Table.row world.table change.key) change.additions change.deletions)
      rw [wroteRow, writerTo_withWriter] at wrote
      have others := inductionHypothesis (world.changed [change]) ownOthers
        (writes ++ [⟨change.key, world.now + 1⟩])
      have later : (world.changed [change]).now = world.now + 1 := List.length_append
      have both : (world.changed [change]).changed changes = world.changed (change :: changes) := by
        rw [changed, changed, changed, List.append_assoc]
        rfl
      rw [later, both, List.append_assoc] at others
      exact wrote.once.trans others

theorem steps_dropped (keys own : List Bytes) (writes : List RowWrite) :
    ∃ settled, Steps capacity stripe (world.withWriter ⟨own, writes, .dropping keys⟩)
      ({ world with
        cache := keys.foldl (dropRow capacity stripe) world.cache
        settled := settled }.withWriter ⟨own, writes, .dropping []⟩) := by
  induction keys generalizing world with
  | nil => exact ⟨world.settled, .refl⟩
  | cons key keys inductionHypothesis =>
      have invalidated : Step capacity stripe _ _ :=
        .invalidated (world.last_withWriter ⟨own, writes, .dropping (key :: keys)⟩) rfl
      rw [invalidatedRow, writerTo_withWriter] at invalidated
      obtain ⟨settled, others⟩ := inductionHypothesis
        { world with
          cache := dropRow capacity stripe world.cache key
          settled := world.settled ++ writes.filter fun write => write.key = key }
      exact ⟨settled, invalidated.once.trans others⟩

/-- A writer changes rows of its own, drops all of them from the cache and returns. -/
theorem steps_writer {changes : List RowChange} {keys : List Bytes}
    (own : ∀ change ∈ changes, change.key ∈ keys) :
    ∃ after, Steps capacity stripe world after ∧
      after.cache = keys.foldl (dropRow capacity stripe) world.cache ∧
      after.table = changeTable world.table changes ∧ after.readers = world.readers ∧
      after.returned = world.returned ++ writesFrom world.now changes := by
  let writes := writesFrom world.now changes
  let done := world.changed changes
  have opened : Step capacity stripe world (world.withWriter ⟨keys, [], .writing⟩) :=
    .opened world keys
  have wrote : Steps capacity stripe _ (done.withWriter ⟨keys, writes, .writing⟩) :=
    world.steps_wrote keys own []
  have finished : Step capacity stripe _ _ :=
    .finished (done.last_withWriter ⟨keys, writes, .writing⟩) rfl
  obtain ⟨settled, dropped⟩ : ∃ settled, Steps capacity stripe _ _ :=
    done.steps_dropped keys keys writes
  let clean : CacheWorld :=
    { done with cache := keys.foldl (dropRow capacity stripe) world.cache, settled := settled }
  have returned : Step capacity stripe _ _ :=
    .returned (clean.last_withWriter ⟨keys, writes, .dropping []⟩) rfl
  rw [writerTo_withWriter] at finished
  exact ⟨_, ((opened.once.trans wrote).tail finished).trans (dropped.tail returned), rfl, rfl, rfl,
    rfl⟩

end Writing

end CacheWorld

/-! ### Calls -/

namespace CachePool

theorem cache_withCache {pool : CachePool} {handle : CachedStore}
    (inPool : handle.slot < pool.caches.length) (cache : Cache) :
    (pool.withCache handle cache).cache handle = cache := by
  rw [CachePool.cache, withCache, List.getElem?_set_self inPool]
  rfl

theorem length_withCache (pool : CachePool) (handle : CachedStore) (cache : Cache) :
    (pool.withCache handle cache).caches.length = pool.caches.length := List.length_set

theorem cache_invalidateAll {pool : CachePool} {handle : CachedStore}
    (inPool : handle.slot < pool.caches.length) (stripe : Bytes → Stripe) (keys : List Bytes) :
    (pool.invalidateAll stripe handle keys).cache handle =
        keys.foldl (CacheWorld.dropRow pool.capacity stripe) (pool.cache handle) ∧
      (pool.invalidateAll stripe handle keys).caches.length = pool.caches.length := by
  induction keys generalizing pool with
  | nil => exact ⟨rfl, rfl⟩
  | cons key keys inductionHypothesis =>
      have length : (pool.invalidate (stripe key) handle key).caches.length =
          pool.caches.length := by
        rw [invalidate]
        split
        · exact length_withCache ..
        · rfl
      have first : (pool.invalidate (stripe key) handle key).cache handle =
          CacheWorld.dropRow pool.capacity stripe (pool.cache handle) key := by
        rw [invalidate, CacheWorld.dropRow, isCaching]
        by_cases caching : 0 < pool.capacity
        · rw [if_pos caching, if_pos (decide_eq_true caching), cache_withCache inPool]
        · rw [if_neg caching, if_neg (by simpa using caching)]
      obtain ⟨others, lengths⟩ := inductionHypothesis (length ▸ inPool)
      rw [capacity_invalidate, first] at others
      exact ⟨others, lengths.trans length⟩

end CachePool

namespace CachedStores

variable {σ : Type} {manager : Manager σ} {capacity : Nat}

/-- The world is the table of a store behind the cache of a handle. -/
structure Stands (capacity : Nat) (view : TableView σ) (name : String) (handle : CachedStore)
    (world : CacheWorld) (pool : CachePool) (state : σ) : Prop where
  capacity : pool.capacity = capacity
  inPool : handle.slot < pool.caches.length
  cache : world.cache = pool.cache handle
  table : world.table = Tables.table (view.tables state) name

/-- What a call leaves in a world: a read has answered, and a writer of all changed rows has
returned. -/
structure Returned (world after : CacheWorld) (call : RowCall) (reply : Result Reply) : Prop where
  read : ∀ key slice, call = .getSlice key slice → ∃ entries, reply = .ok (.entries entries) ∧
    after.readers = world.readers ++ [⟨key, slice, world.returned, .answered entries⟩]
  written : ∀ key, Table.row after.table key ≠ Table.row world.table key →
    ∃ write ∈ after.returned, write.key = key ∧ world.now < write.version

open CacheWorld

section Writing

variable {view : TableView σ} {name : String} {handle : CachedStore} {world : CacheWorld}
  {pool : CachePool} {state after : σ}

theorem Stands.steps_wrote (stands : Stands capacity view name handle world pool state)
    {changes : List RowChange} {keys : List Bytes} (wrote : view.Wrote state changes after)
    (listed : ∀ change ∈ changes, change.store = name ∧ change.key ∈ keys)
    (stripe : Bytes → Stripe) :
    ∃ left, Steps capacity stripe world left ∧
      Stands capacity view name handle left (pool.invalidateAll stripe handle keys) after ∧
      ∀ key, Table.row left.table key ≠ Table.row world.table key →
        ∃ write ∈ left.returned, write.key = key ∧ world.now < write.version := by
  -- The writer makes the changes that were made, and drops all the rows that it was to write.
  obtain ⟨front, isFront, shown⟩ := wrote
  have inFront : ∀ change ∈ front, change.store = name ∧ change.key ∈ keys :=
    fun change member => listed change (isFront.subset member)
  obtain ⟨left, steps, cache, table, -, returned⟩ :=
    world.steps_writer fun change member => (inFront change member).2
  obtain ⟨dropped, length⟩ := CachePool.cache_invalidateAll stands.inPool stripe keys
  have ofStore : front.filter (fun change => change.store = name) = front :=
    List.filter_eq_self.2 fun change member => decide_eq_true (inFront change member).1
  have tables : left.table = Tables.table (view.tables after) name := by
    rw [table, stands.table, TableView.tables_eq shown, Embedded.table_applyAll, ofStore]
    rfl
  refine ⟨left, steps, ⟨?_, ?_, ?_, tables⟩, fun key moved => ?_⟩
  · rw [CachePool.capacity_invalidateAll, stands.capacity]
  · rw [length]
    exact stands.inPool
  · rw [cache, dropped, stands.cache, stands.capacity]
  · by_cases touched : ∃ change ∈ front, change.key = key
    · obtain ⟨change, member, rfl⟩ := touched
      have made : ∃ write ∈ writesFrom world.now front, write.key = change.key ∧
          world.now < write.version := mem_writesFrom member
      obtain ⟨write, made, ofKey, younger⟩ := made
      exact ⟨write, returned ▸ List.mem_append_right _ made, ofKey, younger⟩
    -- A row that no change made has touched is as it was.
    · refine absurd ?_ moved
      rw [tables, stands.table]
      exact TableView.row_of_wrote ⟨front, List.prefix_refl _, shown⟩
        (fun change member same => touched ⟨change, member, same⟩) name

end Writing

namespace Ready

variable {backend : TableBackend manager} {name : String} {handle : CachedStore}
  {world : CacheWorld} {pool : CachePool} {state : σ} (ready : Ready backend name handle pool state)
  (stands : Stands capacity backend.toTableView name handle world pool state)
  (stripe : Bytes → Stripe)
include ready stands

theorem steps_getSlice (key : Bytes) (slice : Slice) :
    let read := (pooled manager stripe).getSlice handle key slice (pool, state)
    ∃ after entries, Steps capacity stripe (world.begun key slice) after ∧
      Stands capacity backend.toTableView name handle after read.2.1 read.2.2 ∧
      read.1 = .ok entries ∧ after.table = world.table ∧
      after.readers = world.readers ++ [⟨key, slice, world.returned, .answered entries⟩] := by
  have reads := ready.reads key slice
  rw [← stands.table] at reads
  intro read
  cases caching : pool.isCaching with
  | false =>
      have off : capacity = 0 := by
        have notPositive : ¬ 0 < pool.capacity := of_decide_eq_false caching
        rw [stands.capacity] at notPositive
        exact Nat.eq_zero_of_not_pos notPositive
      have ran : read = (.ok (Table.slice world.table key slice), (pool, state)) :=
        (getSlice_of_off stripe caching).trans (by rw [reads])
      rw [ran]
      exact ⟨_, _, world.steps_bypassed key slice off, ⟨stands.capacity, stands.inPool,
        stands.cache, stands.table⟩, rfl, rfl, rfl⟩
  | true =>
      have positive : 0 < capacity := stands.capacity ▸ of_decide_eq_true caching
      rcases looked : (pool.cache handle).lookup key slice with ⟨_ | entries, cache⟩
      · have ran : read = _ := getSlice_of_miss stripe caching looked reads
        rw [← stands.cache] at looked
        have inPool : handle.slot < (pool.withCache handle cache).caches.length := by
          rw [CachePool.length_withCache]
          exact stands.inPool
        rw [ran, CachePool.cache_withCache stands.inPool]
        refine ⟨_, _, world.steps_missed key slice positive looked, ⟨stands.capacity, ?_, ?_,
          stands.table⟩, rfl, rfl, rfl⟩
        · rw [CachePool.length_withCache]
          exact inPool
        · rw [CachePool.cache_withCache inPool, stands.capacity]
      · have ran : read = _ := getSlice_of_hit stripe caching looked
        rw [← stands.cache] at looked
        rw [ran]
        refine ⟨_, _, world.steps_hit key slice positive looked, ⟨stands.capacity, ?_, ?_,
          stands.table⟩, rfl, rfl, rfl⟩
        · rw [CachePool.length_withCache]
          exact stands.inPool
        · rw [CachePool.cache_withCache stands.inPool]

omit ready in
theorem stands_cleared :
    Stands capacity backend.toTableView name handle
      { world with cache := if 0 < capacity then world.cache.clear else world.cache }
      (pool.clearCache handle) state := by
  rw [CachePool.clearCache, CachePool.isCaching, stands.capacity]
  by_cases caching : 0 < capacity
  · rw [if_pos caching, if_pos (decide_eq_true caching)]
    refine ⟨stands.capacity, ?_, ?_, stands.table⟩
    · rw [CachePool.length_withCache]
      exact stands.inPool
    · rw [CachePool.cache_withCache stands.inPool, stands.cache]
  · rw [if_neg caching, if_neg (by simpa using caching)]
    exact stands

theorem steps_write {call : RowCall} (isWrite : call.isWrite = true) :
    let done := call.perform (pooled manager stripe) name handle (pool, state)
    ∃ after, Steps capacity stripe world after ∧
      Stands capacity backend.toTableView name handle after done.2.1 done.2.2 ∧
      Returned world after call done.1 := by
  have wrote := call.wrote_performBare backend ready.isOpen name
  rw [← ready.ofStore] at wrote
  obtain ⟨after, steps, left, written⟩ :=
    stands.steps_wrote wrote (fun _ member => RowCall.invalidates_changes member) stripe
  rw [ready.performWrite stripe isWrite]
  refine ⟨after, steps, left, fun key slice same => ?_, written⟩
  rw [same] at isWrite
  exact absurd isWrite Bool.false_ne_true

/-- A call with nothing in between takes steps, and leaves what it leaves through the cache. -/
theorem steps_perform (call : RowCall) :
    let done := call.perform (pooled manager stripe) name handle (pool, state)
    ∃ after, Steps capacity stripe world after ∧
      Stands capacity backend.toTableView name handle after done.2.1 done.2.2 ∧
      Returned world after call done.1 := by
  cases call with
  | getSlice key slice =>
      obtain ⟨after, entries, steps, left, answered, same, readers⟩ :=
        ready.steps_getSlice stands stripe key slice
      have done := Action.bind_pure_apply ((pooled manager stripe).getSlice handle key slice)
        Reply.entries (pool, state)
      have began : Step capacity stripe world _ := .began world key slice
      refine ⟨after, began.once.trans steps, ?_, ?_, fun key moved => ?_⟩
      · rw [RowCall.perform, done]
        exact left
      · intro probe probed sameCall
        obtain ⟨rfl, rfl⟩ := RowCall.getSlice.inj sameCall
        rw [RowCall.perform, done, answered]
        exact ⟨entries, rfl, readers⟩
      · exact absurd (congrArg (Table.row · key) same) moved
  | mutate | compareAndSwap | flush => exact ready.steps_write stands stripe rfl
  | clearCache =>
      refine ⟨_, (Step.cleared world).once, stands_cleared stands, fun key slice same => ?_,
        fun key moved => absurd rfl moved⟩
      cases same

end Ready

theorem Ready.steps_performAll {backend : TableBackend manager} {name : String}
    {handle : CachedStore} {world : CacheWorld} {pool : CachePool} {state : σ}
    (ready : Ready backend name handle pool state)
    (stands : Stands capacity backend.toTableView name handle world pool state)
    (stripe : Bytes → Stripe) (calls : List RowCall) :
    let run := RowCall.performAll (RowCall.perform (pooled manager stripe) name handle) calls
      (pool, state)
    ∃ after, Steps capacity stripe world after ∧
      Stands capacity backend.toTableView name handle after run.2.1 run.2.2 := by
  induction calls generalizing world pool state with
  | nil => exact ⟨world, .refl, stands⟩
  | cons call calls inductionHypothesis =>
      obtain ⟨left, ran, stillReady⟩ := ready.perform stripe call
      obtain ⟨between, first, stillStands, -⟩ := ready.steps_perform stands stripe call
      rw [ran] at stillStands
      obtain ⟨after, others, standsAfter⟩ := inductionHypothesis stillReady stillStands
      rw [RowCall.performAll, ran]
      exact ⟨after, first.trans others, standsAfter⟩

/-- An open store can be acquired, with a new cache in front of it. -/
theorem ready_of_new (backend : TableBackend manager) (capacity : Nat) (stripe : Bytes → Stripe)
    {state : σ} (isOpen : backend.isOpen state = true) (name : String) :
    ∃ handle pool, (pooled manager stripe).store name (.empty capacity, state) =
        (.ok handle, (pool, state)) ∧ Ready backend name handle pool state ∧
      Stands capacity backend.toTableView name handle
        (start (Tables.table (backend.tables state) name)) pool state := by
  have opened := backend.openStore_of_open isOpen name
  have isNew : (CachePool.empty capacity).find? name = none := rfl
  refine ⟨_, _, store_of_opened stripe isNew opened, ⟨?_, rfl, isOpen, ?_⟩, ⟨rfl, ?_, rfl, rfl⟩⟩
  · exact (OrderedMap.find?_insert _ _ _ _).trans (if_pos rfl)
  · exact CachePool.mirrors_adopt isNew _ _
  · exact Nat.zero_lt_one

end CachedStores

end GraphStore
