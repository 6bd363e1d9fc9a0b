import GraphStore.Document.Failure
import GraphStore.Document.Row
import GraphStore.Manager.Embedded
import GraphStore.Manager.Memory
import GraphStore.Options.Storage

/-!
Contract: backends and their settings as documents.

Owns the forms of capabilities, of backend kinds, and of settings, which are given by the
text of a settings file or by single settings on top of the usual ones.
-/

namespace GraphStore.Document

def features (features : Features) : Json :=
  .obj [("ordered_keys", flag features.orderedKeys), ("ttl", flag features.ttl),
    ("multi_row_transactions", flag features.multiRowTransactions),
    ("batch_mutation", flag features.batchMutation),
    ("conditional_writes", flag features.conditionalWrites),
    ("persistent", flag features.persistent)]

structure ManagerSummary where
  name : String
  features : Features

def summary {σ : Type} (manager : Manager σ) : ManagerSummary :=
  ⟨manager.name, manager.features⟩

def manager (summary : ManagerSummary) : Json :=
  .arr [.str summary.name, features summary.features]

/-- The built-in backends, of which only the summary is of interest. -/
def builtInBackends : BackendRegistry ManagerSummary where
  inMemory := summary Memory.manager
  embedded _ _ := .ok (summary Embedded.manager)
  external := .empty

def backendKind : BackendKind → Json
  | .inMemory => .str "in_memory"
  | .embedded => .str "embedded"
  | .external name => .obj [("external", .str name)]

def baseOptions (document : Json) : Reading StorageOptions := do
  match ← get? document "embedded" asStr with
  | some path => return StorageOptions.embedded path
  | none => return StorageOptions.standard

def selectedBackend (document : Json) (default : BackendKind) : Reading BackendKind := do
  if ← getFlag document "embedded_kind" then return .embedded
  match ← get? document "external" asStr with
  | some name => return .external name
  | none => return default

/-- The settings of a file, or single settings on top of the usual ones. -/
def asStorageOptions (document : Json) : Reading StorageOptions := do
  match ← get? document "toml" asStr with
  | some text => orRefuse (StorageOptions.ofText text)
  | none =>
    let base ← baseOptions document
    return {
      backend := ← selectedBackend document base.backend
      path := ← getOr document "path" base.path fun path => some <$> asStr path
      syncWrites := ← getOr document "sync_writes" base.syncWrites asBool
      cacheCapacity := ← getOr document "cache_capacity" base.cacheCapacity asNat
      bufferSize := ← getOr document "buffer_size" base.bufferSize asNat }

/-- Settings, and whether they make sense together. -/
def storageOptions (options : StorageOptions) : List (String × Json) :=
  [("backend", backendKind options.backend), ("path", optional .str options.path),
    ("sync_writes", flag options.syncWrites), ("cache_capacity", nat options.cacheCapacity),
    ("buffer_size", nat options.bufferSize), ("validate", outcome nothing options.validate)]

/-- A registry with a factory as a document gives it: one that opens a backend in memory,
or one that fails. -/
def asFactory (registry : BackendRegistry ManagerSummary) (document : Json) :
    Reading (BackendRegistry ManagerSummary) := do
  match ← asArr document with
  | [name, .str _] => return registry.register (← asStr name) fun _ => .ok (summary Memory.manager)
  | [name, cause] =>
    let cause ← asFailure cause
    return registry.register (← asStr name) fun _ => .error cause
  | _ => malformed "factory"

end GraphStore.Document
