import GraphStore.Session.Basic

/-!
Contract: the transactions of a session.

Owns beginning a transaction and running its steps on the caches that it reads through.
-/

namespace GraphStore

abbrev CachedSession (μ : Type) := CachePool × Session μ

/-- A step of a transaction, which answers and leaves the transaction behind. -/
abbrev TransactionStep (μ α : Type) :=
  CachedStores (CachedSession μ) → Transaction →
    StateM (CachedSession μ) (Result α × Transaction)

namespace TransactionStep

variable {μ : Type}

def mutate (store : String) (key : Bytes) (additions : List Entry) (deletions : List Bytes) :
    TransactionStep μ Unit := fun _ transaction =>
  match transaction.mutate store key additions deletions with
  | .ok staged => return (.ok (), staged)
  | .error failure => return (.error failure, transaction)

/-- Drops everything staged. -/
def rollback : TransactionStep μ Unit := fun _ transaction =>
  match transaction.rollback with
  | .ok ended => return (.ok (), ended)
  | .error failure => return (.error failure, transaction)

/-- Writes everything staged. -/
def commit : TransactionStep μ Unit := fun stores transaction => transaction.commit stores

/-- Reads a slice with the staged writes. -/
def getSlice (store : String) (key : Bytes) (slice : Slice) :
    TransactionStep μ (List Entry) := fun stores transaction => do
  return (← (transaction.getSlice stores store key slice).run, transaction)

/-- The step that preparations have led to, or their failure. -/
def prepared {α : Type} : Result (TransactionStep μ α) → TransactionStep μ α
  | .ok step => step
  | .error failure => fun _ transaction => return (.error failure, transaction)

def look : TransactionStep μ Unit := fun _ transaction => return (.ok (), transaction)

end TransactionStep

namespace SessionContext

variable {μ α : Type}

def sessionPart : Part (CachedSession μ) (Session μ) where
  view := Prod.snd
  replace whole session := (whole.1, session)

def ownCachesPart : Part (CachedSession μ) CachePool where
  view := Prod.fst
  replace whole caches := (caches, whole.2)

def transactionStores (context : SessionContext μ) (ownsCaches : Bool) :
    CachedStores (CachedSession μ) where
  manager := sessionPart.manager context.manager
  pool := if ownsCaches then ownCachesPart else sessionPart.andThen Session.cachesPart
  stripe := Stripe.ofKey

/-- Begins a transaction that shares the caches of the session, or one with a buffer size
and caches of its own. -/
def beginTransaction (context : SessionContext μ) (bufferSize : Option Nat) : HeldTransaction :=
  match bufferSize with
  | none => ⟨Transaction.start context.settings.bufferSize, none⟩
  | some size =>
    ⟨Transaction.start size, some (CachePool.empty context.settings.cacheCapacity)⟩

def holdTransaction (name : String) (held : HeldTransaction) (session : Session μ) : Session μ :=
  { session with
    names := { session.names with
      transactions := session.names.transactions.insert name held } }

/-- Runs a step of a held transaction; answers also the transaction behind the step. -/
def runTransaction (context : SessionContext μ) (name : String) (held : HeldTransaction)
    (step : TransactionStep μ α) : StateM (Session μ) (Result α × Transaction) := do
  let stores := context.transactionStores held.ownCaches.isSome
  let caches := held.ownCaches.getD (CachePool.empty 0)
  let ((outcome, transaction), (caches, session)) :=
    (step stores held.transaction).run (caches, ← get)
  set (holdTransaction name ⟨transaction, held.ownCaches.map fun _ => caches⟩ session)
  return (outcome, transaction)

end SessionContext

end GraphStore
