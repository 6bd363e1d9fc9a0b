import GraphStore.Encoding.Ordered
import GraphStore.Ids.Block
import GraphStore.Manager.Basic

/-!
Contract: granting blocks of identifiers.

Owns the watermark cells, the attempt to claim a block, and the repetition of attempts
until a time is up. The watermark of a partition and namespace is the end of the last
granted block. An attempt reads the watermark and advances it by a conditional write,
so of several authorities that read the same watermark at most one gets the block.

Time is counted in milliseconds and spent between attempts only.
-/

namespace GraphStore

structure IdAuthorityOptions where
  storeName : String
  initialBackoffMillis : UInt64
  maxBackoffMillis : UInt64
deriving DecidableEq, Repr

def IdAuthorityOptions.standard : IdAuthorityOptions := ⟨"system_ids", 5, 500⟩

/-- A granter of blocks over the watermarks of a store. -/
structure IdAuthority where
  store : StoreRef
  sizer : BlockSizer
  options : IdAuthorityOptions
  closed : Bool
deriving DecidableEq, Repr

namespace IdAuthority

variable {σ : Type}

def watermarkKey (partitionId namespaceId : UInt32) : Bytes :=
  Bytes.ofUInt32 partitionId ++ Bytes.ofUInt32 namespaceId

def watermarkColumn : Bytes := [0]

/-- Opens an authority over the store named in the options. -/
def create (manager : Manager σ) (sizer : BlockSizer) (options : IdAuthorityOptions) :
    Action σ IdAuthority := do
  if !manager.features.conditionalWrites then
    throw (.unsupported .conditionalWrites)
  let store ← manager.openStore options.storeName
  return ⟨store, sizer, options, false⟩

/-- The authority after which no block is granted. -/
def close (authority : IdAuthority) : IdAuthority := { authority with closed := true }

def ensureOpen (authority : IdAuthority) : Result Unit :=
  if authority.closed then .error (.closed .idAuthority) else .ok ()

/-- The cell of a watermark and the watermark in it; without a cell it is zero. -/
def readWatermark (authority : IdAuthority) (manager : Manager σ) (key : Bytes) :
    Action σ (Option Bytes × UInt64) := do
  let entries ← manager.getSlice authority.store key (Slice.ofPrefix watermarkColumn)
  match entries.find? fun entry => entry.column = watermarkColumn with
  | none => return (none, 0)
  | some entry =>
    match Encoding.leadingUInt64 entry.value with
    | .ok watermark => return (some entry.value, watermark)
    | .error _ => throw (.corruption (.badWatermark key entry.value))

/-- The end of a block that starts at the watermark, if the bound admits it. -/
def blockEnd? (watermark : UInt64) (shape : BlockShape) : Option UInt64 :=
  let stop := watermark.toNat + shape.size.toNat
  if stop ≤ shape.upperBound.toNat then some (UInt64.ofNat stop) else none

def currentWatermark (authority : IdAuthority) (manager : Manager σ)
    (partitionId namespaceId : UInt32) : Action σ UInt64 := do
  Action.ofResult authority.ensureOpen
  let (_, watermark) ←
    authority.readWatermark manager (watermarkKey partitionId namespaceId)
  return watermark

/-- Advances a watermark over a block, if its cell is still the one read. -/
def advance (authority : IdAuthority) (manager : Manager σ) (key : Bytes)
    (cell : Option Bytes) (stop : UInt64) : Action σ Bool :=
  manager.compareAndSwap authority.store key watermarkColumn cell (Bytes.ofUInt64 stop)

/-- One attempt to claim a block; `none` when another claim came first. -/
def tryClaim (authority : IdAuthority) (manager : Manager σ)
    (partitionId namespaceId : UInt32) : Action σ (Option IdBlock) := do
  let shape := authority.sizer.shape namespaceId
  let key := watermarkKey partitionId namespaceId
  let (cell, start) ← authority.readWatermark manager key
  match blockEnd? start shape with
  | none => throw (.idsExhausted partitionId namespaceId shape.upperBound)
  | some stop =>
    if ← authority.advance manager key cell stop then
      return some ⟨partitionId, namespaceId, start, stop⟩
    else return none

/-- Whether the outcome of an attempt calls for another one. -/
def invitesRetry : Result (Option IdBlock) → Bool
  | .ok none => true
  | .ok (some _) => false
  | .error failure => failure.isRetryable

/-- The outcome of an attempt after which none follows; `conflict` stands for a lost
or transiently failed one. -/
def settle (conflict : StoreError) : Result (Option IdBlock) → Result IdBlock
  | .ok (some block) => .ok block
  | .ok none => .error conflict
  | .error failure => .error (if failure.isRetryable then conflict else failure)

/-- Attempts until one settles the matter or `left` milliseconds have been waited.
The waits start at `backoff` and double up to a maximum. -/
def attempts (authority : IdAuthority) (manager : Manager σ) (partitionId namespaceId : UInt32)
    (timeout left backoff : Nat) : Action σ IdBlock := do
  let outcome ← (authority.tryClaim manager partitionId namespaceId).outcome
  let conflict : StoreError := .idConflict partitionId namespaceId (UInt64.ofNat timeout)
  if h : invitesRetry outcome ∧ 0 < left then
    let wait := min (max backoff 1) left
    attempts authority manager partitionId namespaceId timeout (left - wait)
      (min (backoff * 2) (max authority.options.maxBackoffMillis.toNat 1))
  else Action.ofResult (settle conflict outcome)
termination_by left
decreasing_by omega

/-- A block of identifiers, waiting up to `timeout` milliseconds for it. -/
def getIdBlock (authority : IdAuthority) (manager : Manager σ)
    (partitionId namespaceId : UInt32) (timeout : Nat) : Action σ IdBlock := do
  Action.ofResult authority.ensureOpen
  if (authority.sizer.shape namespaceId).size = 0 then
    throw (.invalidArgument (.zeroBlockSize namespaceId))
  attempts authority manager partitionId namespaceId timeout timeout
    (max authority.options.initialBackoffMillis.toNat 1)

end IdAuthority

end GraphStore
