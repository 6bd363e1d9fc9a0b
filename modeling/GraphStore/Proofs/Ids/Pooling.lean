import GraphStore.Ids.Pool
import GraphStore.Proofs.Ids.Order

/-!
Contract: any number of pools over the authorities of one store, in any order of their steps.

Owns the identifiers of a block below a bound (`IdBlock.idsBelow`), a pool as its callers share it
(`SharedPool`), and the world in which calls on pools interleave with the attempts of authorities
(`PoolWorld`, `PoolWorld.step`). A call that needs a block waits for it and keeps its pool to
itself meanwhile. A whole call is a run of that world (`PoolWorld.nextId_run`).
-/

namespace GraphStore

/-! ### Identifiers of a block -/

namespace IdBlock

/-- The identifiers of a block below a bound, in ascending order. -/
def idsBelow (block : IdBlock) (bound : UInt64) : List UInt64 :=
  block.firstIds (bound.toNat - block.start.toNat)

section Ids

variable {block : IdBlock}

theorem idsBelow_eq {bound : UInt64} (within : bound ≤ block.stop) :
    block.idsBelow bound = (List.range (bound.toNat - block.start.toNat)).map fun index =>
      block.start + UInt64.ofNat index := by
  rw [UInt64.le_iff_toNat_le] at within
  rw [idsBelow, firstIds, Nat.min_eq_left (by omega)]

theorem idsBelow_start (block : IdBlock) : block.idsBelow block.start = [] := by
  simp [idsBelow, firstIds]

/-- The identifiers are counted off without overflow. -/
theorem toNat_start_add {bound : UInt64} {index : Nat}
    (below : index < bound.toNat - block.start.toNat) :
    (block.start + UInt64.ofNat index).toNat = block.start.toNat + index := by
  have bounded := bound.toNat_lt_size
  rw [UInt64.toNat_add, UInt64.toNat_ofNat_of_lt' (by omega)]
  exact Nat.mod_eq_of_lt (by simp only [UInt64.size] at bounded; omega)

/-- The identifiers of a block below a bound are those from its start up to the bound. -/
theorem mem_idsBelow {bound id : UInt64} (within : bound ≤ block.stop) :
    id ∈ block.idsBelow bound ↔ block.start ≤ id ∧ id < bound := by
  rw [idsBelow_eq within, List.mem_map, UInt64.le_iff_toNat_le, UInt64.lt_iff_toNat_lt]
  constructor
  · rintro ⟨index, member, rfl⟩
    have below := List.mem_range.1 member
    rw [toNat_start_add below]
    omega
  · rintro ⟨above, below⟩
    have index : id.toNat - block.start.toNat < bound.toNat - block.start.toNat := by omega
    refine ⟨id.toNat - block.start.toNat, List.mem_range.2 index, UInt64.toNat_inj.1 ?_⟩
    rw [toNat_start_add index]
    omega

theorem idsBelow_ascending {bound : UInt64} (within : bound ≤ block.stop) :
    (block.idsBelow bound).Pairwise (· < ·) := by
  rw [idsBelow_eq within, List.pairwise_map]
  refine List.pairwise_lt_range.imp_of_mem fun {low high} _ inRange less => ?_
  have below := List.mem_range.1 inRange
  rw [UInt64.lt_iff_toNat_lt, toNat_start_add below, toNat_start_add (Nat.lt_trans less below)]
  omega

theorem toNat_succ {next bound : UInt64} (below : next < bound) :
    (next + 1).toNat = next.toNat + 1 := by
  have bounded := bound.toNat_lt_size
  rw [UInt64.lt_iff_toNat_lt] at below
  rw [UInt64.toNat_add]
  exact Nat.mod_eq_of_lt (by simp only [UInt64.size, UInt64.toNat_one] at *; omega)

theorem succ_le {next bound : UInt64} (below : next < bound) : next + 1 ≤ bound := by
  have succ := toNat_succ below
  rw [UInt64.lt_iff_toNat_lt] at below
  rw [UInt64.le_iff_toNat_le]
  omega

theorem idsBelow_succ {next : UInt64} (above : block.start ≤ next) (below : next < block.stop) :
    block.idsBelow (next + 1) = block.idsBelow next ++ [next] := by
  have succ := toNat_succ below
  rw [idsBelow_eq (succ_le below), idsBelow_eq (UInt64.le_of_lt below), succ]
  rw [UInt64.le_iff_toNat_le] at above
  rw [show next.toNat + 1 - block.start.toNat = next.toNat - block.start.toNat + 1 by omega,
    List.range_succ, List.map_append, List.map_singleton]
  have last : block.start + UInt64.ofNat (next.toNat - block.start.toNat) = next := by
    apply UInt64.toNat_inj.1
    have index : next.toNat - block.start.toNat < block.stop.toNat - block.start.toNat := by
      rw [UInt64.lt_iff_toNat_lt] at below
      omega
    rw [toNat_start_add index]
    omega
  rw [last]

end Ids

end IdBlock

/-! ### One call -/

namespace IdPool

variable {σ : Type} {pool : IdPool} {authority : IdAuthority} {manager : Manager σ} {state : σ}

def take (pool : IdPool) : IdPool := { pool with next := pool.next + 1 }

/-- A closed pool gives out nothing and asks for nothing. -/
theorem nextId_of_closed (closed : pool.closed = true) (authority : IdAuthority)
    (manager : Manager σ) (state : σ) :
    pool.nextId authority manager state = ((.error (.closed .idPool), pool), state) := by
  rw [nextId, if_pos closed]

theorem nextId_of_held (isOpen : pool.closed = false) (held : pool.isUsedUp = false)
    (authority : IdAuthority) (manager : Manager σ) (state : σ) :
    pool.nextId authority manager state = ((.ok pool.next, pool.take), state) := by
  have renewed : pool.renew authority manager state = (.ok pool, state) := by
    rw [renew, held]
    rfl
  rw [nextId, isOpen, if_neg Bool.false_ne_true, renewed]
  rfl

theorem nextId_of_granted (isOpen : pool.closed = false) (usedUp : pool.isUsedUp = true)
    {block : IdBlock} {after : σ}
    (granted : authority.getIdBlock manager pool.partitionId pool.namespaceId pool.renewTimeout
      state = (.ok block, after)) :
    pool.nextId authority manager state =
      ((.ok block.start, (pool.withBlock block).take), after) := by
  have renewed : pool.renew authority manager state = (.ok (pool.withBlock block), after) := by
    rw [renew, usedUp]
    exact Action.bind_of_ok granted
  rw [nextId, isOpen, if_neg Bool.false_ne_true, renewed]
  rfl

theorem nextId_of_refused (isOpen : pool.closed = false) (usedUp : pool.isUsedUp = true)
    {failure : StoreError} {after : σ}
    (refused : authority.getIdBlock manager pool.partitionId pool.namespaceId pool.renewTimeout
      state = (.error failure, after)) :
    pool.nextId authority manager state = ((.error failure, pool), after) := by
  have renewed : pool.renew authority manager state = (.error failure, after) := by
    rw [renew, usedUp]
    exact Action.bind_of_error refused
  rw [nextId, isOpen, if_neg Bool.false_ne_true, renewed]

/-- A call that fails leaves its pool as it is. -/
theorem eq_of_nextId_error {after : IdPool} {failure : StoreError} {left : σ}
    (failed : pool.nextId authority manager state = ((.error failure, after), left)) :
    after = pool := by
  unfold nextId at failed
  split at failed
  · cases failed
    rfl
  · split at failed
    · cases failed
      rfl
    · cases failed

end IdPool

/-! ### Pools that are shared -/

/-- A block that a pool has received, and the place of its attempt among the ended ones. -/
structure Receipt where
  place : Nat
  block : IdBlock
deriving DecidableEq, Repr

/-- A pool over one of the authorities. What it has received and handed out, oldest first, is
recorded for reasoning only. -/
structure SharedPool where
  authority : Nat
  pool : IdPool
  /-- A call has the pool to itself and waits for a block: the number of attempts that had ended
  when it asked for one. -/
  waiting : Option Nat
  received : List Receipt
  issued : List UInt64
deriving DecidableEq, Repr

namespace SharedPool

def issue (shared : SharedPool) : SharedPool :=
  { shared with pool := shared.pool.take, issued := shared.issued ++ [shared.pool.next] }

/-- A call begins: it fails, or hands out an identifier of the block, or waits for a new one. -/
def ask (shared : SharedPool) (ended : Nat) : SharedPool :=
  if shared.waiting.isSome || shared.pool.closed then shared
  else if shared.pool.isUsedUp then { shared with waiting := some ended }
  else shared.issue

/-- Whether an attempt of an authority with the given sizes is one that the pool can wait for. -/
def accepts (shared : SharedPool) (sizer : Option BlockSizer) (attempt : Attempt) : Bool :=
  attempt.partitionId = shared.pool.partitionId && attempt.namespaceId = shared.pool.namespaceId &&
    sizer = some attempt.authority.sizer

/-- The waiting call has its block and hands out the first identifier. -/
def receive (shared : SharedPool) (receipt : Receipt) : SharedPool :=
  { shared with
    pool := shared.pool.withBlock receipt.block
    waiting := none
    received := shared.received ++ [receipt] }.issue

/-- The waiting call fails. -/
def refuse (shared : SharedPool) : SharedPool := { shared with waiting := none }

/-- The pool is closed, unless a call has it to itself. -/
def close (shared : SharedPool) : SharedPool :=
  if shared.waiting.isSome then shared else { shared with pool := shared.pool.close }

end SharedPool

/-! ### Interleavings -/

/-- The authorities over a store with their attempts, and pools over the authorities. -/
structure PoolWorld (σ : Type) where
  ids : World σ
  pools : List SharedPool

/-- What can happen next: something to the authorities and attempts, of pools or of others; a pool
is made or closed; a call on a pool begins, or goes on with the block of an ended attempt, or fails
for whatever reason its request for a block had. -/
inductive PoolEvent where
  | ids (event : IdEvent)
  | created (authority : Nat) (partitionId namespaceId : UInt32) (renewTimeout : Nat)
  | asked (pool : Nat)
  | renewed (pool place : Nat)
  | refused (pool : Nat)
  | closed (pool : Nat)
deriving Repr

namespace PoolWorld

variable {σ : Type}

def start (state : σ) : PoolWorld σ := ⟨.start state, []⟩

/-- Whether a pool has received the block of the attempt at a place. -/
def isTaken (world : PoolWorld σ) (place : Nat) : Bool :=
  world.pools.any fun shared => shared.received.any fun receipt => receipt.place = place

/-- A waiting call gets a block that was granted after it asked, and that nobody has got yet. -/
def renew (world : PoolWorld σ) (place : Nat) (shared : SharedPool) : SharedPool :=
  match shared.waiting, world.ids.grantAt? place with
  | some since, some (attempt, block) =>
    if since ≤ place && !world.isTaken place &&
        shared.accepts (world.ids.sizer? shared.authority) attempt then
      shared.receive ⟨place, block⟩
    else shared
  | _, _ => shared

def alter (world : PoolWorld σ) (index : Nat) (change : SharedPool → SharedPool) : PoolWorld σ :=
  { world with pools := world.pools.modify index change }

def step (manager : Manager σ) (name : String) (world : PoolWorld σ) : PoolEvent → PoolWorld σ
  | .ids event => { world with ids := world.ids.step manager name event }
  | .created authority partitionId namespaceId renewTimeout =>
    if authority < world.ids.authorities.length then
      { world with
        pools := world.pools ++
          [⟨authority, .create partitionId namespaceId renewTimeout, none, [], []⟩] }
    else world
  | .asked index => world.alter index fun shared => shared.ask world.ids.ended.length
  | .renewed index place => world.alter index (world.renew place)
  | .refused index => world.alter index SharedPool.refuse
  | .closed index => world.alter index SharedPool.close

def run (manager : Manager σ) (name : String) (events : List PoolEvent) (world : PoolWorld σ) :
    PoolWorld σ :=
  events.foldl (step manager name) world

/-- The identifiers of a partition and namespace that have been handed out, pool by pool. -/
def issued (world : PoolWorld σ) (partitionId namespaceId : UInt32) : List UInt64 :=
  (world.pools.filter fun shared =>
    shared.pool.partitionId = partitionId && shared.pool.namespaceId = namespaceId).flatMap
      SharedPool.issued

/-- An alteration shows in its own pool alone. -/
theorem getElem?_alter (world : PoolWorld σ) (index : Nat) (change : SharedPool → SharedPool)
    (other : Nat) :
    (world.alter index change).pools[other]? =
      world.pools[other]?.map fun shared => if index = other then change shared else shared := by
  rw [alter, List.getElem?_modify]
  rfl

/-- A pool of the altered world is one as before or the one that has changed. -/
theorem mem_alter {world : PoolWorld σ} {index : Nat} {change : SharedPool → SharedPool}
    {shared : SharedPool} (member : shared ∈ (world.alter index change).pools) :
    shared ∈ world.pools ∨ ∃ earlier ∈ world.pools, shared = change earlier := by
  obtain ⟨place, found⟩ := List.mem_iff_getElem?.1 member
  rw [getElem?_alter] at found
  obtain ⟨earlier, held, rfl⟩ := Option.map_eq_some_iff.1 found
  have was := List.mem_of_getElem? held
  split
  · exact Or.inr ⟨earlier, was, rfl⟩
  · exact Or.inl was

/-! ### Whole calls as runs -/

/-- What happens to authorities and attempts only, leaves the pools as they are. -/
theorem run_ids (manager : Manager σ) (name : String) (events : List IdEvent)
    (world : PoolWorld σ) :
    world.run manager name (events.map .ids) =
      { world with ids := world.ids.run manager name events } := by
  induction events generalizing world with
  | nil => rfl
  | cons event events inductionHypothesis =>
      rw [List.map_cons]
      exact inductionHypothesis (world.step manager name (.ids event))

theorem run_append (manager : Manager σ) (name : String) (earlier later : List PoolEvent)
    (world : PoolWorld σ) :
    world.run manager name (earlier ++ later) =
      (world.run manager name earlier).run manager name later :=
  List.foldl_append

/-- Of all that happens, the authorities and attempts see what concerns them. -/
theorem ids_run (manager : Manager σ) (name : String) (events : List PoolEvent)
    (world : PoolWorld σ) :
    ∃ others, (world.run manager name events).ids = world.ids.run manager name others := by
  induction events generalizing world with
  | nil => exact ⟨[], rfl⟩
  | cons event events inductionHypothesis =>
      obtain ⟨others, later⟩ := inductionHypothesis (world.step manager name event)
      have first : ∃ before, (world.step manager name event).ids =
          world.ids.run manager name before := by
        cases event with
        | ids event => exact ⟨[event], rfl⟩
        | created authority partitionId namespaceId renewTimeout =>
            refine ⟨[], ?_⟩
            rw [step]
            split <;> rfl
        | _ => exact ⟨[], rfl⟩
      obtain ⟨before, now⟩ := first
      refine ⟨before ++ others, ?_⟩
      rw [World.run_append, ← now]
      exact later

theorem received_ask (shared : SharedPool) (ended : Nat) :
    (shared.ask ended).received = shared.received := by
  unfold SharedPool.ask
  split
  · rfl
  · split <;> rfl

/-- A place that no pool has received a block of stays free while one of them asks. -/
theorem isTaken_of_asked {world : PoolWorld σ} {place : Nat} (index ended : Nat)
    (old : ∀ shared ∈ world.pools, ∀ receipt ∈ shared.received, receipt.place < place) :
    (world.alter index fun shared => shared.ask ended).isTaken place = false := by
  refine Bool.eq_false_iff.2 fun taken => ?_
  obtain ⟨holder, member, some⟩ := List.any_eq_true.1 taken
  obtain ⟨receipt, received, same⟩ := List.any_eq_true.1 some
  have before : receipt.place < place := by
    rcases mem_alter member with earlier | ⟨earlier, was, rfl⟩
    · exact old holder earlier receipt received
    · rw [received_ask] at received
      exact old earlier was receipt received
  exact absurd (of_decide_eq_true same) (Nat.ne_of_lt before)

/-- How a call on a pool has come out: what it answers, the state of the store behind it, and the
pool, which records the identifier if there is one. -/
structure Called (index : Nat) (shared : SharedPool) (outcome : Result UInt64) (pool : IdPool)
    (state : σ) (after : PoolWorld σ) : Prop where
  state : after.ids.state = state
  pool : ∃ received, after.pools[index]? = some
    ⟨shared.authority, pool, none, received, shared.issued ++ outcome.toOption.toList⟩

/-- A whole call on a pool that nobody else is using is a run. -/
theorem nextId_run (manager : Manager σ) (name : String) {world : PoolWorld σ} {index : Nat}
    {shared : SharedPool} (found : world.pools[index]? = some shared)
    (idle : shared.waiting = none) {authority : IdAuthority}
    (granter : world.ids.authorities[shared.authority]? = some authority)
    (old : ∀ shared ∈ world.pools, ∀ receipt ∈ shared.received,
      receipt.place < world.ids.ended.length) :
    ∃ events outcome pool state,
      shared.pool.nextId authority manager world.ids.state = ((outcome, pool), state) ∧
      Called index shared outcome pool state (world.run manager name events) := by
  have asked : ∀ ended, (world.alter index fun shared => shared.ask ended).pools[index]? =
      some (shared.ask ended) := by
    intro ended
    rw [getElem?_alter, found, Option.map_some, if_pos rfl]
  cases closed : shared.pool.closed with
  | true =>
      refine ⟨[], _, _, _, IdPool.nextId_of_closed closed authority manager _, rfl,
        shared.received, ?_⟩
      rw [Except.toOption, Option.toList_none, List.append_nil, ← idle]
      exact found
  | false =>
  cases usedUp : shared.pool.isUsedUp with
  | false =>
      refine ⟨[.asked index], _, _, _, IdPool.nextId_of_held closed usedUp authority manager _, rfl,
        shared.received, ?_⟩
      show (world.alter index _).pools[index]? = _
      rw [asked, SharedPool.ask, idle, closed, usedUp, SharedPool.issue, idle]
      rfl
  | true =>
  have waits : shared.ask world.ids.ended.length =
      { shared with waiting := some world.ids.ended.length } := by
    rw [SharedPool.ask, idle, closed, usedUp]
    rfl
  obtain ⟨events, outcome, requested, granted⟩ := World.getIdBlock_run manager name granter
    shared.pool.partitionId shared.pool.namespaceId shared.pool.renewTimeout
  let waited : PoolWorld σ :=
    { world.alter index fun shared => shared.ask world.ids.ended.length with
      ids := world.ids.run manager name events }
  have runs : world.run manager name (.asked index :: events.map .ids) = waited :=
    run_ids manager name events (world.step manager name (.asked index))
  have holds : waited.pools[index]? =
      some { shared with waiting := some world.ids.ended.length } :=
    (asked _).trans (congrArg _ waits)
  cases outcome with
  | error failure =>
      refine ⟨.asked index :: events.map .ids ++ [.refused index], _, _, _,
        IdPool.nextId_of_refused closed usedUp requested, ?_⟩
      rw [run_append, runs]
      refine ⟨rfl, shared.received, ?_⟩
      show (waited.alter index SharedPool.refuse).pools[index]? = _
      rw [getElem?_alter, holds, Option.map_some, if_pos rfl, Except.toOption, Option.toList_none,
        List.append_nil]
      rfl
  | ok block =>
      obtain ⟨authorities, others, bid, ended⟩ := granted block rfl
      have place : waited.ids.grantAt? (world.ids.ended ++ others).length =
          some (⟨authority, shared.pool.partitionId, shared.pool.namespaceId, bid⟩, block) := by
        rw [World.grantAt?_eq_some_iff, ended]
        exact List.getElem?_concat_length
      have free : waited.isTaken (world.ids.ended ++ others).length = false :=
        isTaken_of_asked index world.ids.ended.length fun shared member receipt received => by
          rw [List.length_append]
          exact Nat.lt_add_right _ (old shared member receipt received)
      have accepted : SharedPool.accepts { shared with waiting := some world.ids.ended.length }
          (waited.ids.sizer? shared.authority)
          ⟨authority, shared.pool.partitionId, shared.pool.namespaceId, bid⟩ = true := by
        have sizer : waited.ids.sizer? shared.authority = some authority.sizer := by
          rw [World.sizer?, authorities, granter]
          rfl
        simp [SharedPool.accepts, sizer]
      refine ⟨.asked index :: events.map .ids ++
          [.renewed index (world.ids.ended ++ others).length], _, _, _,
        IdPool.nextId_of_granted closed usedUp requested, ?_⟩
      rw [run_append, runs]
      refine ⟨rfl, shared.received ++ [⟨(world.ids.ended ++ others).length, block⟩], ?_⟩
      show (waited.alter index (waited.renew _)).pools[index]? = _
      rw [getElem?_alter, holds, Option.map_some, if_pos rfl, renew, place]
      have since : world.ids.ended.length ≤ (world.ids.ended ++ others).length := by
        rw [List.length_append]
        omega
      simp only [since, free, accepted, decide_true, Bool.not_false, Bool.and_self, if_true]
      rfl

end PoolWorld

end GraphStore
