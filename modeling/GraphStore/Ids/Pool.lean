import GraphStore.Ids.Authority

/-!
Contract: single identifiers out of granted blocks.

Owns the pool that hands out the identifiers of its block one by one and asks the
authority for the next block when none is left.
-/

namespace GraphStore

/-- The identifiers of one partition and namespace that are at hand. -/
structure IdPool where
  partitionId : UInt32
  namespaceId : UInt32
  renewTimeout : Nat
  block : Option IdBlock
  next : UInt64
  closed : Bool
deriving DecidableEq, Repr

namespace IdPool

variable {σ : Type}

def create (partitionId namespaceId : UInt32) (renewTimeout : Nat) : IdPool :=
  ⟨partitionId, namespaceId, renewTimeout, none, 0, false⟩

/-- Whether the next identifier needs a new block. -/
def isUsedUp (pool : IdPool) : Bool :=
  match pool.block with
  | some block => block.stop ≤ pool.next
  | none => true

def withBlock (pool : IdPool) (block : IdBlock) : IdPool :=
  { pool with block := some block, next := block.start }

def renew (pool : IdPool) (authority : IdAuthority) (manager : Manager σ) :
    Action σ IdPool := do
  if pool.isUsedUp then
    let block ← authority.getIdBlock manager pool.partitionId pool.namespaceId
      pool.renewTimeout
    return pool.withBlock block
  else return pool

/-- The next identifier; after a failure the pool is as before. -/
def nextId (pool : IdPool) (authority : IdAuthority) (manager : Manager σ) :
    StateM σ (Result UInt64 × IdPool) := fun state =>
  if pool.closed then ((.error (.closed .idPool), pool), state)
  else
    match pool.renew authority manager state with
    | (.error failure, state) => ((.error failure, pool), state)
    | (.ok pool, state) =>
      ((.ok pool.next, { pool with next := pool.next + 1 }), state)

/-- The pool after which no identifier is handed out. -/
def close (pool : IdPool) : IdPool := { pool with block := none, closed := true }

end IdPool

end GraphStore
