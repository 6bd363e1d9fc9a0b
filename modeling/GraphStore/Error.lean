import GraphStore.Value.Basic

/-!
Contract: the ways in which an operation fails.

Owns the causes, grouped by what is at fault: stored bytes, an argument, a value,
a missing capability, a closed component or an unmet precondition. A cause carries
what its message names. Each group has one further constructor for what a
collaborator outside the library reports in its own words.

The wording lives in the `text` functions and in `StoreError.message` alone.
-/

namespace GraphStore

/-- What is wrong with stored bytes. -/
inductive Damage where
  | varintTruncated (index : Nat)
  | varintTooLarge
  | varintTooLong
  | badEscape (byte : UInt8) (offset : Nat)
  | unterminated
  | offsetOverflow
  | pastEnd (needed remaining : Nat)
  | numberOffsetOverflow
  | shortNumber (length offset : Nat)
  | badBool (byte : UInt8)
  | textNotUtf8
  | trailingValue (count : Nat)
  | trailingTagged (count : Nat)
  | unknownTag (tag : UInt8)
  | storeNameNotUtf8
  | trailingRecord (count : Nat)
  | foreignIndexKey (key : Bytes) (found expected : UInt64)
  | trailingIndexKey (count : Nat) (key : Bytes)
  | badWatermark (key value : Bytes)
  | reported (text : String)
deriving DecidableEq, Repr

/-- What is wrong with an argument. -/
inductive Misuse where
  | sliceInverted (start stop : Bytes)
  | zeroSliceLimit
  | rangeInverted (start stop : Bytes)
  | zeroSelectorLimit
  | zeroBufferSize
  | missingPath
  | unreadableOptions
  | oversizedMutation (bytes : Nat)
  | zeroBlockSize (namespaceId : UInt32)
  | notComposite (index label : String)
  | notMixed (index label : String)
  | fieldCount (index : String) (fields values : Nat)
  | blank (what : String)
  | zeroQueryLimit
  | unclosedQuote (position : Nat)
  | emptyReference (position : Nat)
  | scanShape (workers batch : Nat)
  | noQueries
  | missingIndexName
  | reported (text : String)
deriving DecidableEq, Repr

/-- What is wrong with a value. -/
inductive Unfit where
  | nanKey
  | nanAttribute
  | inconvertible (value : Value) (target : DataType)
  | reported (text : String)
deriving DecidableEq, Repr

/-- Something asked for that is not there. -/
inductive Missing where
  | index (name : String)
  | adapter (name : String)
  | reported (text : String)
deriving DecidableEq, Repr

/-- A capability that a component lacks. -/
inductive Feature where
  | conditionalWrites
  | mixedRemoval
  | otherRebuild
  | indexProvider
  | reported (text : String)
deriving DecidableEq, Repr

/-- A component that serves no more calls. -/
inductive Component where
  | memoryManager
  | embeddedManager
  | idAuthority
  | idPool
  | transaction
  | removalWorker
  | repairWorker
  | reported (text : String)
deriving DecidableEq, Repr

/-- A state that schema or job should be in and is not. -/
inductive Unmet where
  | notDisabled (index found : String)
  | notRebuildable (index found : String)
  | reported (text : String)
deriving DecidableEq, Repr

/-- Why a file could not be read or written. -/
inductive IoCause where
  | device
  | poisonedLog
  | reported (text : String)
deriving DecidableEq, Repr

/-- A failed operation. -/
inductive StoreError where
  | io (cause : IoCause)
  | corruption (cause : Damage)
  | invalidArgument (cause : Misuse)
  | invalidValue (cause : Unfit)
  | notFound (what : Missing)
  | unsupported (feature : Feature)
  | temporary (text : String)
  | persistence (store : String) (source : StoreError)
  | idConflict (partitionId namespaceId : UInt32) (waitedMillis : UInt64)
  | idsExhausted (partitionId namespaceId : UInt32) (upperBound : UInt64)
  | precondition (cause : Unmet)
  | closed (component : Component)
  | scanFailed (job : String) (failures successes : UInt64)
deriving DecidableEq, Repr

/-- Two lower-case hexadecimal digits. -/
def byteText (byte : UInt8) : String := "0x" ++ Bytes.hex [byte]

def Damage.text : Damage → String
  | varintTruncated index => "varint truncated at byte " ++ toString index
  | varintTooLarge => "varint overflows 64 bits"
  | varintTooLong => "varint longer than 10 bytes"
  | badEscape byte offset =>
    "invalid escape sequence 0x00 " ++ byteText byte ++ " at offset " ++ toString offset
  | unterminated => "escaped value missing terminator"
  | offsetOverflow => "cursor offset overflow"
  | pastEnd needed remaining =>
    "cursor read beyond buffer: need " ++ toString needed ++ ", remaining " ++ toString remaining
  | numberOffsetOverflow => "u64 offset overflow"
  | shortNumber length offset =>
    "buffer of " ++ toString length ++ " bytes too short for u64 at offset " ++ toString offset
  | badBool byte => "invalid bool byte " ++ toString byte.toNat
  | textNotUtf8 => "string attribute not UTF-8"
  | trailingValue count => toString count ++ " trailing bytes after value"
  | trailingTagged count => toString count ++ " trailing bytes after tagged value"
  | unknownTag tag => "unknown value tag " ++ toString tag.toNat
  | storeNameNotUtf8 => "log store name is not utf-8"
  | trailingRecord count => toString count ++ " trailing bytes in log record"
  | foreignIndexKey key found expected =>
    "row key " ++ key.show0x ++ " belongs to index " ++ toString found.toNat ++ ", not "
      ++ toString expected.toNat
  | trailingIndexKey count key =>
    toString count ++ " trailing bytes in index key " ++ key.show0x
  | badWatermark key value => "id watermark " ++ key.show0x ++ " holds " ++ value.show0x
  | reported text => text

def Misuse.text : Misuse → String
  | sliceInverted start stop =>
    "slice start " ++ start.show0x ++ " sorts after end " ++ stop.show0x
  | zeroSliceLimit => "slice query limit must be positive"
  | rangeInverted start stop =>
    "key range start " ++ start.show0x ++ " sorts after end " ++ stop.show0x
  | zeroSelectorLimit => "key selector limit must be positive, given 0"
  | zeroBufferSize => "buffer_size must be positive"
  | missingPath => "embedded backend requires a path"
  | unreadableOptions => "storage options: ..."
  | oversizedMutation bytes => "row mutation of " ++ toString bytes ++ " bytes"
  | zeroBlockSize namespaceId =>
    "block size of namespace " ++ toString namespaceId.toNat ++ " must be positive"
  | notComposite index label => "index `" ++ index ++ "` is " ++ label ++ ", not composite"
  | notMixed index label => "index `" ++ index ++ "` is " ++ label ++ ", not mixed"
  | fieldCount index fields values =>
    "index `" ++ index ++ "` has " ++ toString fields ++ " fields, got " ++ toString values
      ++ " values"
  | blank what => what ++ " must not be blank"
  | zeroQueryLimit => "index query limit must be positive"
  | unclosedQuote position => "no closing quote for key at position " ++ toString position
  | emptyReference position => "empty key reference at position " ++ toString position
  | scanShape workers batch =>
    "scan needs at least one worker and one key per batch, got " ++ toString workers ++ " and "
      ++ toString batch
  | noQueries => "scan job issued no slice queries"
  | missingIndexName => "job configuration lacks `index-name`"
  | reported text => text

def Unfit.text : Unfit → String
  | nanKey => "NaN cannot be encoded as a key"
  | nanAttribute => "NaN is not a valid double attribute"
  | inconvertible value target =>
    "cannot convert " ++ value.messageText ++ " to " ++ target.label
  | reported text => text

def Missing.text : Missing → String
  | index name => "index `" ++ name ++ "`"
  | adapter name => "backend adapter `" ++ name ++ "`"
  | reported text => text

def Feature.text : Feature → String
  | conditionalWrites => "conditional writes"
  | mixedRemoval => "removing mixed indexes; drop them in the external index backend"
  | otherRebuild => "rebuilding indexes other than composite ones"
  | indexProvider => "external index provider"
  | reported text => text

def Component.text : Component → String
  | memoryManager => "in-memory store manager"
  | embeddedManager => "embedded store manager"
  | idAuthority => "id authority"
  | idPool => "id pool"
  | transaction => "backend transaction"
  | removalWorker => "index removal worker"
  | repairWorker => "index repair worker"
  | reported text => text

def Unmet.text : Unmet → String
  | notDisabled index found =>
    "index `" ++ index ++ "` must be disabled before removal, found " ++ found
  | notRebuildable index found =>
    "index `" ++ index ++ "` must be registered or enabled to be rebuilt, found " ++ found
  | reported text => text

def IoCause.text : IoCause → String
  | device => "device failure"
  | poisonedLog => "log writer poisoned by an unrecoverable append failure"
  | reported text => text

namespace StoreError

def message : StoreError → String
  | io cause => "IO: " ++ cause.text
  | corruption cause => "corruption: " ++ cause.text
  | invalidArgument cause => "invalid argument: " ++ cause.text
  | invalidValue cause => "invalid value: " ++ cause.text
  | notFound what => what.text ++ " not found"
  | unsupported feature => "unsupported feature: " ++ feature.text
  | temporary text => "temporary backend failure: " ++ text
  | persistence store source =>
    "persistence failure in store `" ++ store ++ "`: " ++ source.message
  | idConflict partitionId namespaceId waitedMillis =>
    "could not secure an id block for partition " ++ toString partitionId.toNat ++ " namespace "
      ++ toString namespaceId.toNat ++ " within " ++ toString waitedMillis.toNat ++ " ms"
  | idsExhausted partitionId namespaceId upperBound =>
    "id pool exhausted for partition " ++ toString partitionId.toNat ++ " namespace "
      ++ toString namespaceId.toNat ++ " (upper bound " ++ toString upperBound.toNat ++ ")"
  | precondition cause => "precondition failed: " ++ cause.text
  | closed component => component.text ++ " is closed"
  | scanFailed job failures successes =>
    "scan job `" ++ job ++ "` failed: " ++ toString failures.toNat ++ " failed keys, "
      ++ toString successes.toNat ++ " processed keys"

/-- Whether the same call may succeed later: transient conditions, also below a
failed flush. -/
def isRetryable : StoreError → Bool
  | temporary _ => true
  | persistence _ source => source.isRetryable
  | _ => false

/-- Whether the error is, at its root, a failure of the device. -/
def isDevice : StoreError → Bool
  | io .device => true
  | persistence _ source => source.isDevice
  | _ => false

/-- Whether the error already names the store whose flush failed. -/
def isPersistence : StoreError → Bool
  | persistence _ _ => true
  | _ => false

end StoreError

/-- The answer of an operation that may fail. -/
abbrev Result (α : Type) := Except StoreError α

end GraphStore
