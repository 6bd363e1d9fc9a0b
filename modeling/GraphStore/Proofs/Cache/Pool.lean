import GraphStore.Proofs.Manager.Tabular
import GraphStore.Session.Transactions

/-!
Contract: a backend with a pool of caches beside it.

Owns operations on a part of a state, the pair of pool and backend (`CachedStores.pooled`), and what
acquiring a handle comes to. A pool that refers to the stores as the backend opens them
(`CachePool.Refers`) goes on doing so, whatever is invalidated.
-/

namespace GraphStore

/-! ### Operations on a part -/

namespace Part

variable {ρ τ σ α β : Type}

def first : Part (ρ × σ) ρ where
  view := Prod.fst
  replace whole part := (part, whole.2)

def second : Part (ρ × σ) σ where
  view := Prod.snd
  replace whole part := (whole.1, part)

variable (part : Part τ σ)

/-- An operation on the part answers as on the part, and the rest of the whole stays. -/
theorem run_apply (action : Action σ α) (whole : τ) :
    part.run action whole =
      ((action (part.view whole)).1, part.replace whole (action (part.view whole)).2) := rfl

theorem run_pure (answer : α) : part.run (return answer) = return answer := by
  funext whole
  exact congrArg (fun whole => (Except.ok answer, whole)) (part.replace_view whole)

/-- Operations on a part in sequence are the sequence on the part. -/
theorem run_bind (first : Action σ α) (next : α → Action σ β) :
    part.run (first >>= next) = part.run first >>= fun answer => part.run (next answer) := by
  funext whole
  rcases ran : first (part.view whole) with ⟨outcome, inner⟩
  have onWhole : part.run first whole = (outcome, part.replace whole inner) := by
    rw [run_apply, ran]
  cases outcome with
  | ok answer =>
      rw [Action.bind_of_ok onWhole, run_apply, run_apply, Action.bind_of_ok ran,
        part.view_replace, part.replace_replace]
  | error failure => rw [Action.bind_of_error onWhole, run_apply, Action.bind_of_error ran]

theorem run_mapError (change : StoreError → StoreError) (action : Action σ α) :
    part.run (action.mapError change) = (part.run action).mapError change := by
  funext whole
  rw [run_apply, Action.mapError, Action.mapError, run_apply]
  rcases action (part.view whole) with ⟨_ | _, inner⟩ <;> rfl

theorem read_apply (whole : τ) : part.read whole = (.ok (part.view whole), whole) := rfl

end Part

/-! ### Pools -/

namespace CachePool

/-- Every handle holds the store that opening its name gives. -/
def Refers (pool : CachePool) (refer : String → StoreRef) : Prop :=
  ∀ name handle, pool.find? name = some handle → handle.store = refer name

variable {pool : CachePool} {refer : String → StoreRef}

theorem refers_empty (capacity : Nat) : (empty capacity).Refers refer := nofun

/-- A handle that is taken from the manager refers to its store, and the pool goes on to refer. -/
theorem Refers.adopt (refers : pool.Refers refer) (name : String) :
    (pool.adopt name (refer name)).1.store = refer name ∧
      (pool.adopt name (refer name)).2.Refers refer := by
  rw [CachePool.adopt]
  cases found : pool.find? name with
  | some handle => exact ⟨refers name handle found, refers⟩
  | none =>
      refine ⟨rfl, fun other handle held => ?_⟩
      rw [find?, OrderedMap.find?_insert] at held
      split at held
      · rename_i same
        rw [← Option.some.inj held, same]
      · exact refers other handle held

theorem find?_invalidate (stripe : Stripe) (handle : CachedStore) (key : Bytes) (name : String) :
    (pool.invalidate stripe handle key).find? name = pool.find? name := by
  rw [invalidate]
  split <;> rfl

@[simp] theorem capacity_invalidate (stripe : Stripe) (handle : CachedStore) (key : Bytes) :
    (pool.invalidate stripe handle key).capacity = pool.capacity := by
  rw [invalidate]
  split <;> rfl

/-- The pool after the invalidation of rows, one by one. -/
def invalidateAll (pool : CachePool) (stripe : Bytes → Stripe) (handle : CachedStore)
    (keys : List Bytes) : CachePool :=
  keys.foldl (fun pool key => pool.invalidate (stripe key) handle key) pool

theorem find?_invalidateAll (stripe : Bytes → Stripe) (handle : CachedStore) (keys : List Bytes)
    (name : String) : (pool.invalidateAll stripe handle keys).find? name = pool.find? name := by
  induction keys generalizing pool with
  | nil => rfl
  | cons key keys inductionHypothesis =>
      exact inductionHypothesis.trans (find?_invalidate (stripe key) handle key name)

theorem capacity_invalidateAll (stripe : Bytes → Stripe) (handle : CachedStore)
    (keys : List Bytes) : (pool.invalidateAll stripe handle keys).capacity = pool.capacity := by
  induction keys generalizing pool with
  | nil => rfl
  | cons key keys inductionHypothesis =>
      exact inductionHypothesis.trans (capacity_invalidate (stripe key) handle key)

theorem Refers.invalidateAll (refers : pool.Refers refer) (stripe : Bytes → Stripe)
    (handle : CachedStore) (keys : List Bytes) :
    (pool.invalidateAll stripe handle keys).Refers refer := by
  intro name held found
  rw [find?_invalidateAll] at found
  exact refers name held found

end CachePool

/-! ### Pool and backend -/

namespace CachedStores

variable {σ : Type}

/-- The stores of a manager behind the caches of a pool beside it. -/
def pooled (manager : Manager σ) (stripe : Bytes → Stripe) : CachedStores (CachePool × σ) where
  manager := Part.second.manager manager
  pool := Part.first
  stripe := stripe

/-- A transaction with caches of its own works on such stores. -/
theorem transactionStores_eq_pooled {μ : Type} (context : SessionContext μ) :
    context.transactionStores true = pooled context.manager Stripe.ofKey := rfl

section Acquiring

variable {manager : Manager σ} (stripe : Bytes → Stripe) {pool : CachePool} {state after : σ}
  {name : String}

/-- A handle in the pool is acquired without a call of the manager. -/
theorem store_of_found {handle : CachedStore} (found : pool.find? name = some handle) :
    (pooled manager stripe).store name (pool, state) = (.ok handle, (pool, state)) := by
  have viewed : (pooled manager stripe).pool.view (pool, state) = pool := rfl
  rw [store, Action.bind_of_ok (Part.read_apply _ _), viewed, found]
  rfl

theorem openStore_pooled {outcome : Result StoreRef}
    (ran : manager.openStore name state = (outcome, after)) :
    (pooled manager stripe).manager.openStore name (pool, state) = (outcome, (pool, after)) := by
  show ((manager.openStore name state).1, (pool, (manager.openStore name state).2)) = _
  rw [ran]

/-- A handle that is not in the pool is opened and put there. -/
theorem store_of_opened (absent : pool.find? name = none) {reference : StoreRef}
    (opened : manager.openStore name state = (.ok reference, after)) :
    (pooled manager stripe).store name (pool, state) =
      (.ok (pool.adopt name reference).1, ((pool.adopt name reference).2, after)) := by
  have viewed : (pooled manager stripe).pool.view (pool, state) = pool := rfl
  rw [store, Action.bind_of_ok (Part.read_apply _ _), viewed, absent]
  exact Action.bind_of_ok (openStore_pooled stripe opened)

/-- An opening that fails leaves the pool alone. -/
theorem store_of_unopened (absent : pool.find? name = none) {failure : StoreError}
    (failed : manager.openStore name state = (.error failure, after)) :
    (pooled manager stripe).store name (pool, state) = (.error failure, (pool, after)) := by
  have viewed : (pooled manager stripe).pool.view (pool, state) = pool := rfl
  rw [store, Action.bind_of_ok (Part.read_apply _ _), viewed, absent]
  exact Action.bind_of_error (openStore_pooled stripe failed)

/-- Acquiring a handle keeps what the opening of a store keeps. -/
theorem keeps_store {ν : Type} {shown : σ → ν}
    (keeps : ∀ name, (manager.openStore name).Keeps shown) (name : String) :
    ((pooled manager stripe).store name).Keeps fun world => shown world.2 := by
  rintro ⟨pool, state⟩
  cases found : pool.find? name with
  | some handle => rw [store_of_found stripe found]
  | none =>
      have kept := keeps name state
      rcases opened : manager.openStore name state with ⟨failure | reference, after⟩
      · rw [opened] at kept
        rw [store_of_unopened stripe found opened]
        exact kept
      · rw [opened] at kept
        rw [store_of_opened stripe found opened]
        exact kept

end Acquiring

/-- Emptying clears the pool and then the manager, whose answer counts. -/
theorem clearStorage_pooled (manager : Manager σ) (stripe : Bytes → Stripe) (pool : CachePool)
    (state : σ) :
    (pooled manager stripe).clearStorage (pool, state) =
      ((manager.clearStorage state).1, (pool.clear, (manager.clearStorage state).2)) :=
  Action.bind_of_ok rfl

end CachedStores

end GraphStore
