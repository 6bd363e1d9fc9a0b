import GraphStore.Error
import GraphStore.OrderedMap
import GraphStore.Toml.Reading

/-!
Contract: the settings that select and shape a backend.

Owns the settings, their defaults and checks, their form in a settings file, and the
choice of the backend that they name. External backends are opened by factories that
are registered by name.
-/

namespace GraphStore

inductive BackendKind where
  | inMemory
  | embedded
  | external (name : String)
deriving DecidableEq, Repr

structure StorageOptions where
  backend : BackendKind
  /-- The directory of the embedded backend. -/
  path : Option String
  /-- Whether every record is forced to the device. -/
  syncWrites : Bool
  /-- The number of slices that the cache of a store holds. -/
  cacheCapacity : Nat
  /-- The most rows that one batch of a commit carries. -/
  bufferSize : Nat
deriving DecidableEq, Repr

namespace StorageOptions

def standard : StorageOptions := ⟨.inMemory, none, true, 4096, 1024⟩

/-- The usual settings of the embedded backend in a directory. -/
def embedded (path : String) : StorageOptions :=
  { standard with backend := .embedded, path := some path }

/-- Fails unless the settings make sense together. -/
def validate (options : StorageOptions) : Result Unit :=
  if options.bufferSize = 0 then .error (.invalidArgument .zeroBufferSize)
  else if options.backend = .embedded ∧ options.path = none then
    .error (.invalidArgument .missingPath)
  else .ok ()

/-! ### Settings files -/

def kindOfContent? (name : String) (content : Toml) : Option BackendKind :=
  match name, content with
  | "external", .text adapter => some (.external adapter)
  | "in_memory", .list [] | "in_memory", .table [] => some .inMemory
  | "embedded", .list [] | "embedded", .table [] => some .embedded
  | _, _ => none

/-- The kind that a value selects: a bare name, or a table with a name as its only field. -/
def kindOf? : Toml → Option BackendKind
  | .text "in_memory" => some .inMemory
  | .text "embedded" => some .embedded
  | .table [(name, content)] => kindOfContent? name content
  | _ => none

def textOf? : Toml → Option String
  | .text content => some content
  | _ => none

def flagOf? : Toml → Option Bool
  | .flag value => some value
  | _ => none

def countOf? : Toml → Option Nat
  | .integer value => if 0 ≤ value then some value.toNat else none
  | _ => none

def field? {α : Type} (fields : List (String × Toml)) (name : String)
    (read? : Toml → Option α) (default : α) : Option α :=
  match fields.lookup name with
  | some content => read? content
  | none => some default

/-- The settings in the fields of a file; unknown fields are ignored. -/
def ofFields? (fields : List (String × Toml)) : Option StorageOptions := do
  return {
    backend := ← field? fields "backend" kindOf? standard.backend
    path := ← field? fields "path" (fun content => (textOf? content).map some) standard.path
    syncWrites := ← field? fields "sync_writes" flagOf? standard.syncWrites
    cacheCapacity := ← field? fields "cache_capacity" countOf? standard.cacheCapacity
    bufferSize := ← field? fields "buffer_size" countOf? standard.bufferSize }

def ofText (text : String) : Result StorageOptions :=
  match (Toml.read? text).bind ofFields? with
  | none => .error (.invalidArgument .unreadableOptions)
  | some options => do
    options.validate
    return options

end StorageOptions

/-- What can be opened: the built-in backends and the registered ones. -/
structure BackendRegistry (μ : Type) where
  inMemory : μ
  /-- Opens the embedded backend in a directory. -/
  embedded : String → StorageOptions → Result μ
  external : OrderedMap String (StorageOptions → Result μ)

namespace BackendRegistry

variable {μ : Type}

/-- The registry with a factory for a name, in place of an earlier one. -/
def register (registry : BackendRegistry μ) (name : String)
    (factory : StorageOptions → Result μ) : BackendRegistry μ :=
  { registry with external := registry.external.insert name factory }

/-- Whether a factory of a name is registered. -/
def contains (registry : BackendRegistry μ) (name : String) : Bool :=
  registry.external.contains name

def openManager (registry : BackendRegistry μ) (options : StorageOptions) : Result μ := do
  options.validate
  match options.backend with
  | .inMemory => return registry.inMemory
  | .embedded =>
    match options.path with
    | some path => registry.embedded path options
    | none => throw (.invalidArgument .missingPath)
  | .external name =>
    match registry.external.find? name with
    | some factory => factory options
    | none => throw (.notFound (.adapter name))

end BackendRegistry

end GraphStore
