import GraphStore.Cache.Stores

/-!
Contract: a manager whose calls are counted and disturbed as planned.

Owns the plan and its bookkeeping, and the manager that consults it before every call.
It serves to try out what is built on a manager under failures and under writes that
come between a read of a store and its return.
-/

namespace GraphStore

inductive CallKind where
  | getSlice
  | getKeys
  | mutate
  | compareAndSwap
  | openStore
  | mutateMany
  | close
  | clearStorage
deriving DecidableEq, Repr

namespace CallKind

def all : List CallKind :=
  [getSlice, getKeys, mutate, compareAndSwap, openStore, mutateMany, close, clearStorage]

def label : CallKind → String
  | getSlice => "get_slice"
  | getKeys => "get_keys"
  | mutate => "mutate"
  | compareAndSwap => "cas"
  | openStore => "open_store"
  | mutateMany => "mutate_many"
  | close => "close"
  | clearStorage => "clear_storage"

def ofLabel? (label : String) : Option CallKind := all.find? fun kind => kind.label = label

end CallKind

/-- What happens to a disturbed call instead of itself. -/
inductive Disturbance where
  | failure (cause : StoreError)
  /-- A conditional write answers that it lost; other calls go on. -/
  | lostSwap
deriving DecidableEq, Repr

/-- A disturbance of the calls of a kind, for one store or for all, that lets `skip`
calls pass and then meets `times` of them. -/
structure PlannedFault where
  call : CallKind
  store : Option String
  skip : Nat
  times : Nat
  effect : Disturbance
deriving DecidableEq, Repr

namespace PlannedFault

def concerns (fault : PlannedFault) (call : CallKind) (store : Option String) : Bool :=
  fault.call = call && (fault.store = none || fault.store = store)

/-- Whether the next call that concerns the fault meets it. -/
def isDue (fault : PlannedFault) : Bool := fault.skip = 0 && 0 < fault.times

/-- The fault after a call that concerns it. -/
def passed (fault : PlannedFault) : PlannedFault :=
  if 0 < fault.skip then { fault with skip := fault.skip - 1 }
  else { fault with times := fault.times - 1 }

end PlannedFault

/-- A write, or the emptying of a cache, that comes between a read of a store and its
return. -/
structure PlannedRace where
  store : String
  key : Bytes
  additions : List Entry
  deletions : List Bytes
  clearsCache : Bool
deriving DecidableEq, Repr

/-- The faults in the order in which they were planned, one race for each store at most,
and the calls so far. -/
structure Interposer where
  calls : List CallKind
  faults : List PlannedFault
  races : OrderedMap String PlannedRace
deriving DecidableEq

namespace Interposer

def empty : Interposer := ⟨[], [], .empty⟩

/-- The effect of the first due fault of a call, and the faults afterwards. Faults behind
the one that is met do not see the call. -/
def meet (call : CallKind) (store : Option String) :
    List PlannedFault → Option Disturbance × List PlannedFault
  | [] => (none, [])
  | fault :: faults =>
    if fault.concerns call store then
      if fault.isDue then (some fault.effect, fault.passed :: faults)
      else
        let (effect, rest) := meet call store faults
        (effect, fault.passed :: rest)
    else
      let (effect, rest) := meet call store faults
      (effect, fault :: rest)

/-- Counts a call and looks for a fault that it meets. -/
def register (interposer : Interposer) (call : CallKind) (store : Option String) :
    Option Disturbance × Interposer :=
  let (effect, faults) := meet call store interposer.faults
  (effect, { interposer with calls := call :: interposer.calls, faults := faults })

def plan (interposer : Interposer) (fault : PlannedFault) : Interposer :=
  { interposer with faults := interposer.faults ++ [fault] }

/-- Plans a race in place of an earlier one of its store. -/
def planRace (interposer : Interposer) (race : PlannedRace) : Interposer :=
  { interposer with races := interposer.races.insert race.store race }

def takeRace (interposer : Interposer) (store : String) : Option PlannedRace × Interposer :=
  (interposer.races.find? store, { interposer with races := interposer.races.erase store })

/-- The kinds of the counted calls with their numbers, and a fresh count. -/
def takeCounts (interposer : Interposer) : List (CallKind × Nat) × Interposer :=
  let counts := CallKind.all.map fun kind => (kind, interposer.calls.count kind)
  (counts.filter fun count => 0 < count.2, { interposer with calls := [] })

end Interposer

/-- How the disturbed manager differs from the one it stands before. -/
structure InterposerOptions where
  batchMutation : Option Bool
  conditionalWrites : Option Bool
  /-- Whether batches are written store by store and row by row. -/
  rowByRow : Bool
deriving DecidableEq, Repr

namespace Interposer

variable {σ : Type}

/-- Counts a call and runs it unless a fault comes first. -/
def guarded {α : Type} (interposer : Part σ Interposer) (call : CallKind)
    (store : Option String) (lost : Option α) (proceed : Action σ α) : Action σ α := do
  let (effect, after) := (← interposer.read).register call store
  interposer.change fun _ => after
  match effect, lost with
  | some (.failure cause), _ => throw cause
  | some .lostSwap, some answer => return answer
  | _, _ => proceed

/-- The capabilities that the disturbed manager announces. -/
def featuresOf (options : InterposerOptions) (features : Features) : Features :=
  { features with
    batchMutation := options.batchMutation.getD features.batchMutation
    conditionalWrites := options.conditionalWrites.getD features.conditionalWrites }

/-- The disturbed manager without races, and with batches as the inner one writes them. -/
def calm (interposer : Part σ Interposer) (options : InterposerOptions) (inner : Manager σ) :
    Manager σ :=
  { inner with
    features := featuresOf options inner.features
    openStore := fun name => guarded interposer .openStore (some name) none (inner.openStore name)
    getSlice := fun store key slice =>
      guarded interposer .getSlice (some store.name) none (inner.getSlice store key slice)
    mutate := fun store key additions deletions =>
      guarded interposer .mutate (some store.name) none
        (inner.mutate store key additions deletions)
    startScan := fun store =>
      guarded interposer .getKeys (some store.name) none (inner.startScan store)
    compareAndSwap := fun store key column expected new =>
      guarded interposer .compareAndSwap (some store.name) (some false)
        (if options.conditionalWrites = some false then throw (.unsupported .conditionalWrites)
        else inner.compareAndSwap store key column expected new)
    mutateMany := fun mutations =>
      guarded interposer .mutateMany mutations.keys.head? none (inner.mutateMany mutations)
    close := guarded interposer .close none none inner.close
    clearStorage := guarded interposer .clearStorage none none inner.clearStorage }

/-- The disturbed manager without races. -/
def batching (interposer : Part σ Interposer) (options : InterposerOptions)
    (inner : Manager σ) : Manager σ :=
  let base := calm interposer options inner
  if options.rowByRow then
    { base with
      mutateMany := fun mutations =>
        guarded interposer .mutateMany mutations.keys.head? none (base.mutateEach mutations) }
  else base

/-- Makes the write of a race through the caches, or empties the cache of its store. -/
def runRace (stores : CachedStores σ) (race : PlannedRace) : Action σ Unit := do
  let handle ← stores.store race.store
  if race.clearsCache then stores.clearCache handle
  else stores.mutate handle race.key race.additions race.deletions

/-- Runs the next race of a store, whatever becomes of it. -/
def runNextRace (interposer : Part σ Interposer) (stores : CachedStores σ) (store : String) :
    Action σ Unit := do
  let (race, after) := (← interposer.read).takeRace store
  interposer.change fun _ => after
  match race with
  | none => return ()
  | some race =>
    let _ ← (runRace stores race).outcome
    return ()

/-- The disturbed manager. Races go through the caches of the given pool, and come between
a read and its return whether the read succeeds or not. -/
def manager (interposer : Part σ Interposer) (options : InterposerOptions)
    (pool : Part σ CachePool) (stripe : Bytes → Stripe) (inner : Manager σ) : Manager σ :=
  let base := batching interposer options inner
  let stores : CachedStores σ := ⟨base, pool, stripe⟩
  { base with
    getSlice := fun store key slice =>
      guarded interposer .getSlice (some store.name) none do
        let entries ← (inner.getSlice store key slice).outcome
        runNextRace interposer stores store.name
        Action.ofResult entries }

end Interposer

end GraphStore
