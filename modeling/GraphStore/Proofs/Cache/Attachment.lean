import GraphStore.Proofs.Manager.Upkeep
import GraphStore.Proofs.Transaction.Rereading

/-!
Contract: the pool of cached handles beside the manager, in any order of their steps.

Owns the sections of calls that are atomic (`ResolverWorld.Step`): for a handle, the look into the
pool, the opening by the manager and the insertion into the pool; for the emptying of the storage,
that of the pool and that of the manager. Any number of such calls take them in any order, among
reads and writes of any kind.

The invariant (`ResolverWorld.Sound`) dates stores: the generation of an opened store is the number
of emptyings of the manager before its opening. So a handle wraps the store that the manager opens
exactly if the manager has not been emptied since. An emptying leaves behind the handles that it
finds in the pool, and the opened stores that are on their way there (`resolver_attaches_exact`).
-/

namespace GraphStore

/-- A call under way, by the section that comes next. -/
inductive ResolverCall where
  | lookup (name : String)
  | acquire (name : String)
  | insert (name : String) (store : StoreRef)
  | emptyPool
  | emptyManager
deriving DecidableEq, Repr

def ResolverCall.carries : ResolverCall → Bool
  | .insert _ _ => true
  | _ => false

/-- What the manager has been asked for: a store, or its emptying, at which there was nothing to
leave behind or something. -/
inductive ResolverEvent where
  | opened (store : StoreRef)
  | emptied (vacant : Bool)
deriving DecidableEq, Repr

def ResolverEvent.empties : ResolverEvent → Bool
  | .emptied _ => true
  | .opened _ => false

/-- The manager has been emptied since the store was opened. Events are listed newest first. -/
def EmptiedSince (history : List ResolverEvent) (store : StoreRef) : Prop :=
  ∃ later earlier, history = later ++ .opened store :: earlier ∧
    later.countP ResolverEvent.empties ≠ 0

/-- A manager and its pool of cached handles, with the calls at work. The history is for reasoning
only: no step depends on it. -/
structure ResolverWorld (σ : Type) where
  pool : CachePool
  state : σ
  calls : List ResolverCall
  history : List ResolverEvent

namespace ResolverWorld

variable {σ : Type} {manager : Manager σ}

def start (capacity : Nat) (state : σ) : ResolverWorld σ := ⟨.empty capacity, state, [], []⟩

/-- There is no handle in the pool, and none on its way there. -/
def isVacant (world : ResolverWorld σ) : Bool :=
  world.pool.handles.isEmpty && !world.calls.any ResolverCall.carries

/-- What can happen next; `front` are the calls before the one that goes on. Reads and writes, those
of commits among them, leave the handles of the pool and the generation of the manager alone. -/
inductive Step (backend : BatchBackend manager) : ResolverWorld σ → ResolverWorld σ → Prop where
  | resolving (world : ResolverWorld σ) (name : String) :
      Step backend world { world with calls := .lookup name :: world.calls }
  | emptying (world : ResolverWorld σ) :
      Step backend world { world with calls := .emptyPool :: world.calls }
  | found {world : ResolverWorld σ} (front : List ResolverCall) {back : List ResolverCall}
      {name : String} {handle : CachedStore}
      (present : world.calls = front ++ .lookup name :: back)
      (held : world.pool.find? name = some handle) :
      Step backend world { world with calls := front ++ back }
  | missed {world : ResolverWorld σ} (front : List ResolverCall) {back : List ResolverCall}
      {name : String} (present : world.calls = front ++ .lookup name :: back)
      (absent : world.pool.find? name = none) :
      Step backend world { world with calls := front ++ .acquire name :: back }
  | opened {world : ResolverWorld σ} (front : List ResolverCall) {back : List ResolverCall}
      {name : String} {store : StoreRef} {after : σ}
      (present : world.calls = front ++ .acquire name :: back)
      (answered : manager.openStore name world.state = (.ok store, after)) :
      Step backend world
        { world with
          state := after
          calls := front ++ .insert name store :: back
          history := .opened store :: world.history }
  | refused {world : ResolverWorld σ} (front : List ResolverCall) {back : List ResolverCall}
      {name : String} {failure : StoreError} {after : σ}
      (present : world.calls = front ++ .acquire name :: back)
      (answered : manager.openStore name world.state = (.error failure, after)) :
      Step backend world { world with state := after, calls := front ++ back }
  | inserted {world : ResolverWorld σ} (front : List ResolverCall) {back : List ResolverCall}
      {name : String} {store : StoreRef}
      (present : world.calls = front ++ .insert name store :: back) :
      Step backend world
        { world with pool := (world.pool.adopt name store).2, calls := front ++ back }
  | forgot {world : ResolverWorld σ} (front : List ResolverCall) {back : List ResolverCall}
      (present : world.calls = front ++ .emptyPool :: back) :
      Step backend world
        { world with pool := world.pool.clear, calls := front ++ .emptyManager :: back }
  | emptied {world : ResolverWorld σ} (front : List ResolverCall) {back : List ResolverCall}
      {after : σ} (present : world.calls = front ++ .emptyManager :: back)
      (answered : manager.clearStorage world.state = (.ok (), after)) :
      Step backend world
        { world with
          state := after
          calls := front ++ back
          history := .emptied world.isVacant :: world.history }
  | unemptied {world : ResolverWorld σ} (front : List ResolverCall) {back : List ResolverCall}
      {failure : StoreError} {after : σ}
      (present : world.calls = front ++ .emptyManager :: back)
      (answered : manager.clearStorage world.state = (.error failure, after)) :
      Step backend world { world with state := after, calls := front ++ back }
  | worked {world : ResolverWorld σ} {pool : CachePool} {state : σ}
      (sameHandles : ∀ name, pool.find? name = world.pool.find? name)
      (sameNumber : (backend.stores state).number = (backend.stores world.state).number) :
      Step backend world { world with pool := pool, state := state }

inductive Steps (backend : BatchBackend manager) (world : ResolverWorld σ) :
    ResolverWorld σ → Prop where
  | refl : Steps backend world world
  | tail {between after : ResolverWorld σ} (steps : Steps backend world between)
      (step : Step backend between after) : Steps backend world after

variable {backend : BatchBackend manager}

theorem Steps.trans {world between after : ResolverWorld σ}
    (first : Steps backend world between) (second : Steps backend between after) :
    Steps backend world after := by
  induction second with
  | refl => exact first
  | tail _ step inductionHypothesis => exact inductionHypothesis.tail step

/-! ### The invariant -/

/-- The store was opened under the name, and it is current if nothing was ever left behind. -/
structure Origin (backend : BatchBackend manager) (world : ResolverWorld σ) (name : String)
    (store : StoreRef) : Prop where
  name : store.name = name
  opened : .opened store ∈ world.history
  current : .emptied false ∉ world.history →
    store.generation = (backend.stores world.state).number

/-- An origin stays good as long as nothing further is left behind. -/
theorem Origin.mono {world after : ResolverWorld σ} {name : String} {store : StoreRef}
    (origin : world.Origin backend name store)
    (events : ∀ event ∈ world.history, event ∈ after.history)
    (number : .emptied false ∉ after.history →
      (backend.stores after.state).number = (backend.stores world.state).number) :
    after.Origin backend name store :=
  ⟨origin.name, events _ origin.opened, fun none =>
    (origin.current fun member => none (events _ member)).trans (number none).symm⟩

/-- Opened stores are dated by the emptyings since, and those in the pool or on their way there have
been opened under their names. -/
structure Sound (backend : BatchBackend manager) (world : ResolverWorld σ) : Prop where
  dated : ∀ later earlier store, world.history = later ++ .opened store :: earlier →
    (backend.stores world.state).number =
      store.generation + later.countP ResolverEvent.empties
  kept : ∀ name handle, world.pool.find? name = some handle →
    world.Origin backend name handle.store
  carried : ∀ name store, .insert name store ∈ world.calls → world.Origin backend name store

theorem sound_start (capacity : Nat) (state : σ) : (start capacity state).Sound backend where
  dated later _ _ split := absurd split.symm (List.append_ne_nil_of_right_ne_nil later nofun)
  kept := nofun
  carried := nofun

/-- A call that goes on has others beside it that do not. -/
theorem mem_of_replaced {front back : List ResolverCall} {call other : ResolverCall}
    (next : List ResolverCall) (member : other ∈ front ++ (next ++ back)) :
    other ∈ next ∨ other ∈ front ++ call :: back := by
  simp only [List.mem_append, List.mem_cons] at member ⊢
  rcases member with inFront | inNext | inBack
  · exact Or.inr (Or.inl inFront)
  · exact Or.inl inNext
  · exact Or.inr (Or.inr (Or.inr inBack))

/-- A section that carries no store on leaves the stores that are carried. -/
theorem carried_of_replaced {world : ResolverWorld σ} {front back : List ResolverCall}
    {call : ResolverCall} (next : List ResolverCall)
    (plain : ∀ name store, .insert name store ∉ next)
    (present : world.calls = front ++ call :: back) :
    ∀ name store, .insert name store ∈ front ++ (next ++ back) →
      .insert name store ∈ world.calls := by
  intro name store member
  rw [present]
  exact (mem_of_replaced next member).resolve_left (plain name store)

theorem find?_of_isVacant {world : ResolverWorld σ} (vacant : world.isVacant = true)
    (name : String) : world.pool.find? name = none := by
  obtain ⟨none, -⟩ := (Bool.and_eq_true _ _).mp vacant
  show world.pool.handles.entries.lookup name = _
  rw [List.isEmpty_iff.1 none]
  rfl

theorem not_carried_of_isVacant {world : ResolverWorld σ} (vacant : world.isVacant = true)
    (name : String) (store : StoreRef) : .insert name store ∉ world.calls := by
  obtain ⟨-, none⟩ := (Bool.and_eq_true _ _).mp vacant
  intro member
  have carries : world.calls.any ResolverCall.carries = true :=
    List.any_eq_true.2 ⟨_, member, rfl⟩
  rw [carries] at none
  exact nomatch none

namespace Sound

variable {world : ResolverWorld σ} (sound : world.Sound backend)
include sound

/-- Most steps leave the generation and open nothing. -/
theorem of_same {after : ResolverWorld σ} (history : after.history = world.history)
    (number : (backend.stores after.state).number = (backend.stores world.state).number)
    (kept : ∀ name handle, after.pool.find? name = some handle →
      world.pool.find? name = some handle ∨ .insert name handle.store ∈ world.calls)
    (carried : ∀ name store, .insert name store ∈ after.calls →
      .insert name store ∈ world.calls) : after.Sound backend := by
  have origin : ∀ name store, world.Origin backend name store → after.Origin backend name store :=
    fun name store origin => origin.mono (fun event member => history ▸ member) fun _ => number
  constructor
  case dated =>
    intro later earlier store split
    rw [number]
    exact sound.dated later earlier store (history ▸ split)
  case kept =>
    intro name handle found
    rcases kept name handle found with held | member
    · exact origin _ _ (sound.kept name handle held)
    · exact origin _ _ (sound.carried name handle.store member)
  case carried =>
    intro name store member
    exact origin _ _ (sound.carried name store (carried name store member))

/-- An opening keeps the world sound. -/
theorem opened {after : ResolverWorld σ} {name : String} {store : StoreRef}
    (refers : store = (backend.stores world.state).refer name) (pool : after.pool = world.pool)
    (stores : backend.stores after.state = backend.stores world.state)
    (history : after.history = .opened store :: world.history)
    (carried : ∀ other held, .insert other held ∈ after.calls →
      other = name ∧ held = store ∨ .insert other held ∈ world.calls) : after.Sound backend := by
  have origin : ∀ name store, world.Origin backend name store → after.Origin backend name store :=
    fun name store origin => origin.mono
      (fun event member => history ▸ List.mem_cons_of_mem _ member)
      fun _ => congrArg Generations.number stores
  constructor
  case dated =>
    intro later earlier other split
    rw [history] at split
    rw [stores]
    cases later with
    | nil =>
        obtain rfl := ResolverEvent.opened.inj (List.cons.inj split).1
        rw [refers]
        rfl
    | cons event later =>
        obtain ⟨rfl, rest⟩ := List.cons.inj split
        exact sound.dated later earlier other rest
  case kept =>
    intro other handle found
    rw [pool] at found
    exact origin _ _ (sound.kept other handle found)
  case carried =>
    intro other held member
    rcases carried other held member with ⟨rfl, rfl⟩ | member
    · refine ⟨congrArg StoreRef.name refers, history ▸ List.mem_cons_self, fun _ => ?_⟩
      rw [stores, refers]
      rfl
    · exact origin _ _ (sound.carried other held member)

/-- An emptying keeps the world sound: it dates every store that has been opened before. -/
theorem emptied {after : ResolverWorld σ} (pool : after.pool = world.pool)
    (stores : backend.stores after.state = (backend.stores world.state).clear)
    (history : after.history = .emptied world.isVacant :: world.history)
    (carried : ∀ name store, .insert name store ∈ after.calls →
      .insert name store ∈ world.calls) : after.Sound backend := by
  -- What is still there has been left behind, and the event tells so.
  have origin : world.isVacant ≠ true → ∀ name store, world.Origin backend name store →
      after.Origin backend name store := by
    intro occupied name store origin
    rw [Bool.eq_false_iff.2 occupied] at history
    refine origin.mono (fun event member => history ▸ List.mem_cons_of_mem _ member) fun none => ?_
    exact absurd (history ▸ List.mem_cons_self) none
  constructor
  case dated =>
    intro later earlier store split
    rw [history] at split
    rw [stores, Generations.number_clear]
    cases later with
    | nil => exact nomatch (List.cons.inj split).1
    | cons event later =>
        obtain ⟨rfl, rest⟩ := List.cons.inj split
        rw [sound.dated later earlier store rest]
        exact congrArg (store.generation + ·) (List.countP_cons_of_pos rfl).symm
  case kept =>
    intro name handle found
    rw [pool] at found
    refine origin (fun vacant => ?_) _ _ (sound.kept name handle found)
    exact nomatch (find?_of_isVacant vacant name).symm.trans found
  case carried =>
    intro name store member
    have inCalls := carried name store member
    exact origin (fun vacant => not_carried_of_isVacant vacant name store inCalls) _ _
      (sound.carried name store inCalls)

end Sound

theorem Step.sound {world after : ResolverWorld σ} (step : Step backend world after)
    (sound : world.Sound backend) : after.Sound backend := by
  cases step with
  | resolving name =>
      refine sound.of_same rfl rfl (fun _ _ => Or.inl) fun other store member => ?_
      exact (List.mem_cons.1 member).resolve_left nofun
  | emptying =>
      refine sound.of_same rfl rfl (fun _ _ => Or.inl) fun other store member => ?_
      exact (List.mem_cons.1 member).resolve_left nofun
  | found front present held =>
      exact sound.of_same rfl rfl (fun _ _ => Or.inl) (carried_of_replaced [] nofun present)
  | @missed front _ name present absent =>
      exact sound.of_same rfl rfl (fun _ _ => Or.inl)
        (carried_of_replaced [.acquire name] (by simp) present)
  | @opened front _ name store after present answered =>
      rcases backend.opens world.state name with opened | ⟨failure, failed⟩
      · obtain ⟨same, rfl⟩ := Prod.mk.inj (opened.symm.trans answered)
        refine sound.opened (Except.ok.inj same).symm rfl rfl rfl fun other held member => ?_
        rw [present]
        rcases mem_of_replaced [.insert name _] member with own | before
        · exact Or.inl (ResolverCall.insert.inj (List.mem_singleton.1 own))
        · exact Or.inr before
      · exact nomatch congrArg Prod.fst (failed.symm.trans answered)
  | @refused front _ name failure after present answered =>
      rcases backend.opens world.state name with opened | ⟨failure, failed⟩
      · exact nomatch congrArg Prod.fst (opened.symm.trans answered)
      · obtain rfl := (Prod.mk.inj (failed.symm.trans answered)).2
        exact sound.of_same rfl rfl (fun _ _ => Or.inl) (carried_of_replaced [] nofun present)
  | inserted front present =>
      refine sound.of_same rfl rfl (fun other handle found => ?_)
        (carried_of_replaced [] nofun present)
      rw [present]
      rcases CachePool.found_of_adopt found with held | ⟨rfl, rfl⟩
      · exact Or.inl held
      · exact Or.inr (List.mem_append_right _ List.mem_cons_self)
  | forgot front present =>
      exact sound.of_same rfl rfl nofun (carried_of_replaced [.emptyManager] (by simp) present)
  | emptied front present answered =>
      obtain ⟨outcome, left, ran, stores⟩ := backend.clears world.state
      obtain ⟨rfl, rfl⟩ := Prod.mk.inj (ran.symm.trans answered)
      exact sound.emptied rfl stores rfl (carried_of_replaced [] nofun present)
  | unemptied front present answered =>
      obtain ⟨outcome, left, ran, stores⟩ := backend.clears world.state
      obtain ⟨rfl, rfl⟩ := Prod.mk.inj (ran.symm.trans answered)
      exact sound.of_same rfl (congrArg Generations.number stores) (fun _ _ => Or.inl)
        (carried_of_replaced [] nofun present)
  | worked sameHandles sameNumber =>
      refine sound.of_same rfl sameNumber (fun name handle found => Or.inl ?_) fun _ _ => id
      rw [← sameHandles name]
      exact found

/-- Handles stay dated and under their names in any run. -/
theorem Steps.sound {world after : ResolverWorld σ} (steps : Steps backend world after)
    (sound : world.Sound backend) : after.Sound backend := by
  induction steps with
  | refl => exact sound
  | tail _ step inductionHypothesis => exact step.sound inductionHypothesis

/-! ### Calls that run alone -/

section Alone

open CachedStores

variable (backend) {stripe : Bytes → Stripe} {world : ResolverWorld σ} {pool : CachePool}
  {state : σ}

/-- The sections of an acquisition of a handle, without others in between. -/
theorem Steps.store {name : String} {outcome : Result CachedStore}
    (ran : (pooled manager stripe).store name (world.pool, world.state) =
      (outcome, (pool, state))) :
    ∃ history, Steps backend world ⟨pool, state, world.calls, history⟩ := by
  have begun : Steps backend world _ := Steps.refl.tail (.resolving world name)
  cases found : world.pool.find? name with
  | some handle =>
      rw [store_of_found stripe found] at ran
      obtain ⟨rfl, rfl⟩ := Prod.mk.inj (Prod.mk.inj ran).2
      exact ⟨_, begun.tail (.found [] rfl found)⟩
  | none =>
      have missed := begun.tail (.missed [] rfl found)
      rcases backend.opens world.state name with answered | ⟨failure, failed⟩
      · rw [store_of_opened stripe found answered] at ran
        obtain ⟨rfl, rfl⟩ := Prod.mk.inj (Prod.mk.inj ran).2
        have opened := missed.tail (.opened [] rfl answered)
        exact ⟨_, opened.tail (.inserted [] rfl)⟩
      · rw [store_of_unopened stripe found failed] at ran
        obtain ⟨rfl, rfl⟩ := Prod.mk.inj (Prod.mk.inj ran).2
        exact ⟨_, missed.tail (.refused [] rfl failed)⟩

/-- The sections of an emptying of the storage, without others in between. -/
theorem Steps.clearStorage {outcome : Result Unit}
    (ran : (pooled manager stripe).clearStorage (world.pool, world.state) =
      (outcome, (pool, state))) :
    ∃ history, Steps backend world ⟨pool, state, world.calls, history⟩ := by
  have forgot : Steps backend world _ :=
    (Steps.refl.tail (.emptying world)).tail (.forgot [] rfl)
  rcases emptied : manager.clearStorage world.state with ⟨failure | done, after⟩
  all_goals
    rw [clearStorage_pooled, emptied] at ran
    obtain ⟨rfl, rfl⟩ := Prod.mk.inj (Prod.mk.inj ran).2
  · exact ⟨_, forgot.tail (.unemptied [] rfl emptied)⟩
  · exact ⟨_, forgot.tail (.emptied [] rfl emptied)⟩

/-- The flush of a store is a run of steps beside the calls under way. -/
theorem Steps.flushStore {size : Nat} {name : String} {rows : OrderedMap Bytes Mutation}
    {outcome : Result Unit}
    (ran : Transaction.flushStore (pooled manager stripe) size name rows
      (world.pool, world.state) = (outcome, (pool, state))) :
    ∃ history, Steps backend world ⟨pool, state, world.calls, history⟩ := by
  rcases acquired : (pooled manager stripe).store name (world.pool, world.state) with
    ⟨failure | handle, adopted, acquiring⟩
  · have stopped : Transaction.flushStore (pooled manager stripe) size name rows
        (world.pool, world.state) = (.error (.persistence name failure), (adopted, acquiring)) :=
      Action.bind_of_error (Action.mapError_of_error acquired)
    obtain ⟨rfl, rfl⟩ := Prod.mk.inj (Prod.mk.inj (stopped.symm.trans ran)).2
    exact Steps.store backend acquired
  · obtain ⟨reached, after, front, written, -, shown, -⟩ :=
      Transaction.follows_writeStore backend size name handle.store rows acquiring
    have flushed := Transaction.flushStore_pooled stripe size name rows acquired written
    obtain ⟨rfl, rfl⟩ := Prod.mk.inj (Prod.mk.inj (flushed.symm.trans ran)).2
    obtain ⟨history, steps⟩ := Steps.store backend acquired
    refine ⟨history, steps.tail (.worked ?_ ?_)⟩
    · exact adopted.find?_invalidateAll stripe handle rows.keys
    · exact congrArg (fun shown => shown.1.number) shown

/-- The flush of many stores is such a run. -/
theorem Steps.flush {size : Nat} (stores : List (String × OrderedMap Bytes Mutation))
    {outcome : Result Unit}
    (ran : Transaction.flush (pooled manager stripe) size stores (world.pool, world.state) =
      (outcome, (pool, state))) :
    ∃ history, Steps backend world ⟨pool, state, world.calls, history⟩ := by
  induction stores generalizing world with
  | nil =>
      obtain ⟨rfl, rfl⟩ := Prod.mk.inj (Prod.mk.inj ran).2
      exact ⟨_, .refl⟩
  | cons store stores inductionHypothesis =>
      rcases flushed : Transaction.flushStore (pooled manager stripe) size store.1 store.2
        (world.pool, world.state) with ⟨failure | done, middle, between⟩
      · have stopped : Transaction.flush (pooled manager stripe) size (store :: stores)
            (world.pool, world.state) = (.error failure, (middle, between)) :=
          Action.bind_of_error flushed
        obtain ⟨rfl, rfl⟩ := Prod.mk.inj (Prod.mk.inj (stopped.symm.trans ran)).2
        exact Steps.flushStore backend flushed
      · obtain ⟨history, first⟩ := Steps.flushStore backend flushed
        have rest : Transaction.flush (pooled manager stripe) size stores (middle, between) =
            (outcome, (pool, state)) :=
          (Action.bind_of_ok flushed).symm.trans ran
        obtain ⟨history, second⟩ :=
          @inductionHypothesis ⟨middle, between, world.calls, history⟩ rest
        exact ⟨history, first.trans second⟩

/-- A commit is made of acquisitions of handles and of work. -/
theorem Steps.commit {transaction ended : Transaction} {outcome : Result Unit}
    (ran : transaction.commit (pooled manager stripe) (world.pool, world.state) =
      ((outcome, ended), (pool, state))) :
    ∃ history, Steps backend world ⟨pool, state, world.calls, history⟩ := by
  rw [Transaction.commit] at ran
  split at ran
  · obtain ⟨rfl, rfl⟩ := Prod.mk.inj (Prod.mk.inj ran).2
    exact ⟨_, .refl⟩
  · rcases flushed : Transaction.flush (pooled manager stripe) transaction.bufferSize
      transaction.pending.entries (world.pool, world.state) with ⟨reached, left⟩
    rw [flushed] at ran
    obtain rfl : left = (pool, state) := (Prod.mk.inj ran).2
    exact Steps.flush backend _ flushed

end Alone

/-! ### What handles come to -/

namespace Sound

variable {world : ResolverWorld σ} (sound : world.Sound backend)
include sound

theorem past_of_emptiedSince {store : StoreRef} (since : EmptiedSince world.history store) :
    store.generation < (backend.stores world.state).number := by
  obtain ⟨later, earlier, split, some⟩ := since
  rw [sound.dated later earlier store split]
  omega

theorem current_of_not_emptiedSince {store : StoreRef} (opened : .opened store ∈ world.history)
    (still : ¬ EmptiedSince world.history store) :
    store.generation = (backend.stores world.state).number := by
  obtain ⟨later, earlier, split⟩ := List.append_of_mem opened
  have none : later.countP ResolverEvent.empties = 0 :=
    Decidable.byContradiction fun some => still ⟨later, earlier, split, some⟩
  rw [sound.dated later earlier store split, none]
  rfl

/-- A name resolves to the store that the manager opens, unless the manager has been emptied since
the one in the pool was opened. -/
theorem resolve_eq_iff (name : String) :
    world.pool.resolve (backend.stores world.state).refer name =
        (backend.stores world.state).refer name ↔
      ¬ EmptiedSince world.history
        (world.pool.resolve (backend.stores world.state).refer name) := by
  constructor
  · intro same since
    rw [same] at since
    exact Nat.lt_irrefl _ (sound.past_of_emptiedSince since)
  · intro still
    cases found : world.pool.find? name with
    | some handle =>
        rw [CachePool.resolve_of_found found] at still ⊢
        have origin := sound.kept name handle found
        exact StoreRef.eq_iff.2
          ⟨origin.name, sound.current_of_not_emptiedSince origin.opened still⟩
    | none => exact CachePool.resolve_of_absent found

theorem resolve_of_vacant (none : .emptied false ∉ world.history) (name : String) :
    world.pool.resolve (backend.stores world.state).refer name =
      (backend.stores world.state).refer name := by
  cases found : world.pool.find? name with
  | some handle =>
      rw [CachePool.resolve_of_found found]
      have origin := sound.kept name handle found
      exact StoreRef.eq_iff.2 ⟨origin.name, origin.current none⟩
  | none => exact CachePool.resolve_of_absent found

end Sound

section Resolves

open CachedStores

structure Resolves (backend : BatchBackend manager) (stripe : Bytes → Stripe)
    (world : ResolverWorld σ) : Prop where
  /-- A handle wraps the store that the manager opens exactly if the manager has not been emptied
  since the opening of the one that it wraps. -/
  attached_iff : ∀ name handle acquired reference after,
    (pooled manager stripe).store name (world.pool, world.state) = (.ok handle, acquired) →
    manager.openStore name world.state = (.ok reference, after) →
    (handle.store = reference ↔ ¬ EmptiedSince world.history handle.store)
  /-- It does so if every emptying of the manager found the pool without handles and no opened store
  on its way there. -/
  attached : .emptied false ∉ world.history → ∀ name handle acquired reference after,
    (pooled manager stripe).store name (world.pool, world.state) = (.ok handle, acquired) →
    manager.openStore name world.state = (.ok reference, after) → handle.store = reference
  /-- Behind a commit, a new transaction reads a row that was committed as it has become. If the
  manager has been emptied since the store of the handle was opened, it reads the row that the store
  has had all along. -/
  reads : backend.isOpen world.state = true → ∀ (transaction ended : Transaction) after,
    transaction.state = .running →
    transaction.commit (pooled manager stripe) (world.pool, world.state) =
      ((.ok (), ended), after) →
    ∀ name key mutation, transaction.staged? name key = some mutation →
    ∃ handle acquired,
      (pooled manager stripe).store name (world.pool, world.state) = (.ok handle, acquired) ∧
      (¬ EmptiedSince world.history handle.store →
        (pooled manager stripe).ShowsRow after name key
          (mutation.applyTo (Tables.row (backend.stores world.state).current name key))) ∧
      (EmptiedSince world.history handle.store →
        (pooled manager stripe).ShowsRow after name key
          (Table.row ((backend.stores world.state).table handle.store) key))

theorem Sound.resolves {world : ResolverWorld σ} (sound : world.Sound backend)
    (stripe : Bytes → Stripe) : world.Resolves backend stripe where
  attached_iff name handle acquired reference after resolved opened := by
    rw [store_resolves backend stripe resolved]
    rcases backend.opens world.state name with answered | ⟨failure, failed⟩
    · rw [← Except.ok.inj (congrArg Prod.fst (answered.symm.trans opened))]
      exact sound.resolve_eq_iff name
    · exact nomatch congrArg Prod.fst (failed.symm.trans opened)
  attached none name handle acquired reference after resolved opened := by
    rw [store_resolves backend stripe resolved]
    rcases backend.opens world.state name with answered | ⟨failure, failed⟩
    · rw [← Except.ok.inj (congrArg Prod.fst (answered.symm.trans opened))]
      exact sound.resolve_of_vacant none name
    · exact nomatch congrArg Prod.fst (failed.symm.trans opened)
  reads isOpen transaction ended after running committed name key mutation staged := by
    obtain ⟨stores, shows⟩ :=
      Transaction.showsRow_of_committed backend stripe isOpen running committed staged
    have acquired : (pooled manager stripe).store name (world.pool, world.state) = _ :=
      store_of_open backend stripe isOpen name
    have resolved := store_resolves backend stripe acquired
    refine ⟨_, _, acquired, fun still => ?_, fun since => ?_⟩
    · have committed := StoreMutations.row_rowChanges transaction.pending
        (backend.stores world.state).current name key
      rw [Transaction.mutationOf_of_staged staged] at committed
      rw [resolved] at still
      rw [(sound.resolve_eq_iff name).2 still, stores, Generations.table_applyAll_refer] at shows
      rw [← committed]
      exact shows
    · have past := sound.past_of_emptiedSince since
      rw [← resolved, stores, Generations.table_applyAll_of_past _ past] at shows
      exact shows

end Resolves

end ResolverWorld

/-! ### Both backends -/

open ResolverWorld

/-- On either backend, whatever the order of the sections: a cached handle wraps the store that the
manager opens, and shows what is committed from then on, exactly if the manager has not been emptied
since the store was opened. -/
theorem resolver_attaches_exact (capacity : Nat) (stripe : Bytes → Stripe) :
    (∀ memory world, Steps Memory.batchBackend (start capacity memory) world →
      world.Resolves Memory.batchBackend stripe) ∧
    ∀ embedded world, Steps Embedded.batchBackend (start capacity embedded) world →
      world.Resolves Embedded.batchBackend stripe :=
  ⟨fun memory _ steps => (steps.sound (sound_start capacity memory)).resolves stripe,
    fun embedded _ steps => (steps.sound (sound_start capacity embedded)).resolves stripe⟩

/-- A store is opened, and its handle kept. -/
def Embedded.keptWorld : ResolverWorld Embedded where
  pool := ((CachePool.empty 16).adopt "s" ⟨"s", 0⟩).2
  state := .fresh
  calls := []
  history := [.opened ⟨"s", 0⟩]

theorem Embedded.steps_keptWorld :
    Steps Embedded.batchBackend (start 16 .fresh) Embedded.keptWorld := by
  have missed : Steps Embedded.batchBackend (start 16 .fresh)
      ⟨.empty 16, .fresh, [.acquire "s"], []⟩ :=
    (Steps.refl.tail (.resolving _ "s")).tail (.missed [] rfl rfl)
  exact (missed.tail (.opened [] rfl rfl)).tail (.inserted [] rfl)

/-- A handle is kept after the pool has been emptied and before the manager is. -/
def Memory.strandedWorld : ResolverWorld Memory where
  pool := ((CachePool.empty 16).adopt "s" ⟨"s", 0⟩).2
  state := ⟨⟨[.empty], .empty⟩, false⟩
  calls := []
  history := [.emptied false, .opened ⟨"s", 0⟩]

theorem Memory.steps_strandedWorld :
    Steps Memory.batchBackend (start 16 .empty) Memory.strandedWorld := by
  have begun : Steps Memory.batchBackend (start 16 .empty)
      ⟨.empty 16, .empty, [.emptyPool, .lookup "s"], []⟩ :=
    (Steps.refl.tail (.resolving _ "s")).tail (.emptying _)
  have forgot : Steps Memory.batchBackend (start 16 .empty)
      ⟨.empty 16, .empty, [.emptyManager, .acquire "s"], []⟩ :=
    (begun.tail (.forgot [] rfl)).tail (.missed [_] rfl rfl)
  have inserted : Steps Memory.batchBackend (start 16 .empty)
      ⟨Memory.strandedWorld.pool, .empty, [.emptyManager], [.opened ⟨"s", 0⟩]⟩ :=
    (forgot.tail (.opened [_] rfl rfl)).tail (.inserted [_] rfl)
  exact inserted.tail (.emptied [] rfl rfl)

theorem resolver_attaches_exact_stranded :
    (Steps Memory.batchBackend (start 16 .empty) Memory.strandedWorld ∧
      Memory.strandedWorld.Resolves Memory.batchBackend Stripe.ofKey) ∧
    (Steps Embedded.batchBackend (start 16 .fresh) Embedded.keptWorld ∧
      Embedded.keptWorld.Resolves Embedded.batchBackend Stripe.ofKey) := by
  obtain ⟨inMemory, withLog⟩ := resolver_attaches_exact 16 Stripe.ofKey
  exact ⟨⟨Memory.steps_strandedWorld, inMemory _ _ Memory.steps_strandedWorld⟩,
    Embedded.steps_keptWorld, withLog _ _ Embedded.steps_keptWorld⟩

def oneCell : Transaction :=
  { Transaction.start 1 with
    pending := Transaction.stageRow .empty "s" [1] (.ofParts [⟨[2], [3]⟩] []) }

/-- Emptying the storage while a handle is acquired: all calls return, the handle that is kept wraps
another store than the manager opens, and a row that is committed from then on is in the store of
the manager but not in what a later transaction reads. -/
theorem emptying_strands_handle :
    Steps Memory.batchBackend (start 16 .empty) Memory.strandedWorld ∧
    Memory.strandedWorld.calls = [] ∧
    (CachedStores.pooled Memory.manager Stripe.ofKey).store "s"
        (Memory.strandedWorld.pool, Memory.strandedWorld.state) =
      (.ok ⟨⟨"s", 0⟩, 0⟩, (Memory.strandedWorld.pool, Memory.strandedWorld.state)) ∧
    Memory.manager.openStore "s" Memory.strandedWorld.state =
      (.ok ⟨"s", 1⟩, Memory.strandedWorld.state) ∧
    (Transaction.start 1).mutate "s" [1] [⟨[2], [3]⟩] [] = .ok oneCell ∧
    ∃ ended after read,
      oneCell.commit (CachedStores.pooled Memory.manager Stripe.ofKey)
          (Memory.strandedWorld.pool, Memory.strandedWorld.state) = ((.ok (), ended), after) ∧
      Memory.manager.getSlice ⟨"s", 1⟩ [1] Slice.fullRow after.2 = (.ok [⟨[2], [3]⟩], after.2) ∧
      (Transaction.start 1).getSlice (CachedStores.pooled Memory.manager Stripe.ofKey) "s" [1]
        Slice.fullRow after = (.ok [], read) := by
  refine ⟨Memory.steps_strandedWorld, rfl, rfl, rfl, rfl, ?_⟩
  have isOpen : Memory.batchBackend.isOpen Memory.strandedWorld.state = true := rfl
  have running : oneCell.state = .running := rfl
  obtain ⟨outcome, after, front, flushed, -, shown, -, succeeds⟩ :=
    (@Transaction.follows_flush _ _ Memory.batchBackend Stripe.ofKey 1 oneCell.pending.entries
      (Memory.strandedWorld.pool, Memory.strandedWorld.state) isOpen).1
  obtain rfl := succeeds ⟨trivial, isOpen⟩
  have committed : oneCell.commit (CachedStores.pooled Memory.manager Stripe.ofKey)
      (Memory.strandedWorld.pool, Memory.strandedWorld.state) =
        ((.ok (), oneCell.finished (.ok ())), after) := by
    rw [Transaction.commit_of_running running]
    exact congrArg (fun flushed => ((flushed.1, oneCell.finished flushed.1), flushed.2)) flushed
  have staged : oneCell.staged? "s" [1] = some (.ofParts [⟨[2], [3]⟩] []) := by decide +kernel
  obtain ⟨stores, shows⟩ := Transaction.showsRow_of_committed Memory.batchBackend Stripe.ofKey
    isOpen running committed staged
  obtain ⟨read, reads⟩ := shows 1 Slice.fullRow
  refine ⟨_, after, read, committed, ?_, ?_⟩
  · have stillOpen : Memory.batchBackend.isOpen after.2 = true :=
      (congrArg Prod.snd shown).trans isOpen
    refine (Memory.batchBackend.reads_of_open after.2 ⟨"s", 1⟩ [1] Slice.fullRow stillOpen).trans ?_
    rw [stores]
    exact congrArg (fun entries => (Except.ok entries, after.2)) (by decide +kernel)
  · rw [reads, stores]
    exact congrArg (fun entries => (Except.ok entries, read)) (by decide +kernel)

end GraphStore
