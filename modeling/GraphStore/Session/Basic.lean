import GraphStore.Cache.Basic
import GraphStore.Ids.Pool
import GraphStore.Index.Schema
import GraphStore.Manager.Embedded
import GraphStore.Manager.Interposed
import GraphStore.Manager.Memory
import GraphStore.Part
import GraphStore.Scan.Script
import GraphStore.Session.Handle
import GraphStore.Transaction

/-!
Contract: sequences of operations on one storage.

Owns the kinds of storage: beside its manager, a storage is opened again over what an earlier
session has left, and may keep a log. Owns as well the state that such a sequence builds up: the
storage with its caches, the schema, and everything that has been given a name. A session is worked
on in a context that does not change.
-/

namespace GraphStore

/-! ### Storages -/

/-- A kind of storage with states `μ`. -/
structure Backing (μ : Type) where
  manager : Manager μ
  /-- Opens what is left of a storage that was closed or abandoned. -/
  reopen : μ → Result μ
  /-- The backend with the log, for storages that keep one. -/
  logged : Option (Part μ Embedded)

namespace Backing

/-- Storage in memory, of which nothing is left. -/
def memory : Backing Memory where
  manager := Memory.manager
  reopen _ := .ok Memory.empty
  logged := none

/-- Opens the backend over the log that another one leaves. -/
def reopenLog (syncWrites : Bool) (embedded : Embedded) : Result Embedded :=
  ((Embedded.openLog syncWrites).runOn { embedded.logFile with position := 0 }).1

def embedded (syncWrites : Bool) : Backing Embedded where
  manager := Embedded.manager
  reopen := reopenLog syncWrites
  logged := some Part.whole

end Backing

/-! ### States -/

structure HeldTransaction where
  transaction : Transaction
  /-- The caches that it reads through, unless it shares those of the session. -/
  ownCaches : Option CachePool

/-- A pool that a session holds, with the number of the authority that it draws on. -/
structure HeldPool where
  pool : IdPool
  authority : Nat

structure SessionNames where
  handles : OrderedMap String StoreHandle
  transactions : OrderedMap String HeldTransaction
  /-- The numbers of authorities. -/
  authorities : OrderedMap String Nat
  pools : OrderedMap String HeldPool

def SessionNames.empty : SessionNames := ⟨.empty, .empty, .empty, .empty⟩

/-- The state of a session on a storage with states `μ`. -/
structure Session (μ : Type) where
  storage : μ
  /-- The storages that others have replaced, oldest first. -/
  former : List μ
  interposer : Interposer
  caches : CachePool
  schema : Schema
  notes : ScriptNotes
  names : SessionNames
  authorities : List IdAuthority

structure SessionSettings where
  cacheCapacity : Nat
  bufferSize : Nat
  indexOptions : IndexOptions
  /-- How calls to the storage are disturbed, if they are. -/
  interposition : Option InterposerOptions

/-- What stays the same throughout a session. -/
structure SessionContext (μ : Type) where
  backing : Backing μ
  settings : SessionSettings

namespace Session

variable {μ : Type}

def start (storage : μ) (settings : SessionSettings) (schema : Schema) : Session μ where
  storage := storage
  former := []
  interposer := .empty
  caches := .empty settings.cacheCapacity
  schema := schema
  notes := .empty
  names := .empty
  authorities := []

def storagePart : Part (Session μ) μ where
  view := Session.storage
  replace session storage := { session with storage := storage }

/-- The storage that a session has or had after the given number of replacements. -/
def storagePartAt (number : Nat) : Part (Session μ) μ where
  view session := session.former[number]?.getD session.storage
  replace session storage :=
    if number < session.former.length then
      { session with former := session.former.set number storage }
    else { session with storage := storage }
  view_replace session storage := by
    by_cases replaced : number < session.former.length
    · simp only [if_pos replaced, List.getElem?_set_self replaced, Option.getD_some]
    · simp only [if_neg replaced, List.getElem?_eq_none (Nat.le_of_not_lt replaced),
        Option.getD_none]
  replace_view session := by
    by_cases replaced : number < session.former.length
    · simp only [if_pos replaced, List.getElem?_eq_getElem replaced, Option.getD_some,
        List.set_getElem_self]
    · simp only [if_neg replaced, List.getElem?_eq_none (Nat.le_of_not_lt replaced),
        Option.getD_none]
  replace_replace session first second := by
    by_cases replaced : number < session.former.length
    · simp only [if_pos replaced, List.length_set, List.set_set]
    · simp only [if_neg replaced]

/-- The plans and counts of calls as part of a session. -/
def interposerPart : Part (Session μ) Interposer where
  view := Session.interposer
  replace session interposer := { session with interposer := interposer }

def cachesPart : Part (Session μ) CachePool where
  view := Session.caches
  replace session caches := { session with caches := caches }

def notesPart : Part (Session μ) ScriptNotes where
  view := Session.notes
  replace session notes := { session with notes := notes }

end Session

namespace SessionContext

variable {μ : Type}

def manager (context : SessionContext μ) : Manager (Session μ) :=
  let storage := Session.storagePart.manager context.backing.manager
  match context.settings.interposition with
  | some options =>
    Interposer.manager Session.interposerPart options Session.cachesPart Stripe.ofKey storage
  | none => storage

def stores (context : SessionContext μ) : CachedStores (Session μ) :=
  ⟨context.manager, Session.cachesPart, Stripe.ofKey⟩

/-- The storage that a walk keeps to, whatever replaces it, if the walk begins after the
given number of replacements. -/
def managerAt (context : SessionContext μ) (number : Nat) : Manager (Session μ) :=
  (Session.storagePartAt number).manager context.backing.manager

/-- Closes the storage, opens it again, and forgets everything named; an abandoned storage
is not closed first. -/
def reopen (context : SessionContext μ) (isAbandoned : Bool) : Action (Session μ) Unit := do
  if !isAbandoned then
    context.manager.close
  let storage ← Action.ofResult (context.backing.reopen (← get).storage)
  modify fun session => { session with
    storage := storage
    former := session.former ++ [session.storage]
    caches := .empty context.settings.cacheCapacity
    names := .empty
    authorities := [] }

end SessionContext

end GraphStore
