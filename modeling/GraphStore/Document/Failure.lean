import GraphStore.Document.Reading

/-!
Contract: failures as documents.

Owns the names of the kinds of failures and the two forms of a failure: the form that
describes one to be raised, and the form in which one is reported. The words of the
operating system are never part of a report.
-/

namespace GraphStore.Document

def kindName : StoreError → String
  | .io _ => "Io"
  | .corruption _ => "Corruption"
  | .invalidArgument _ => "InvalidArgument"
  | .invalidValue _ => "InvalidValue"
  | .notFound _ => "NotFound"
  | .unsupported _ => "UnsupportedFeature"
  | .temporary _ => "Temporary"
  | .persistence _ _ => "Persistence"
  | .idConflict _ _ _ => "UniqueIdConflict"
  | .idsExhausted _ _ _ => "IdPoolExhausted"
  | .precondition _ => "Precondition"
  | .closed _ => "Closed"
  | .scanFailed _ _ _ => "ScanFailed"

/-- The text of a failure, unless it holds words of the operating system. -/
def messageFields (failure : StoreError) : List (String × Json) :=
  if failure.isDevice then [] else [("message", .str failure.message)]

/-- What is reported of a failure beside its kind. -/
def failureFields (failure : StoreError) : List (String × Json) :=
  match failure with
  | .idConflict partitionId namespaceId _ =>
    [("partition", .int partitionId.toNat), ("namespace", .int namespaceId.toNat)]
  | .persistence store source =>
    [("store", .str store), ("source", .str (kindName source))] ++ messageFields failure
  | _ => messageFields failure

def failure (failure : StoreError) : Json :=
  .obj (("error", .str (kindName failure)) :: failureFields failure)

def Fault.report : Fault → Json
  | .malformed what => .obj [("error", .str "BadInput"), ("message", .str what)]
  | .unacceptable => .obj [("error", .str "Json")]
  | .refused cause => failure cause

def success (content : Json) : Json := .obj [("ok", content)]

def outcome {α : Type} (write : α → Json) : Result α → Json
  | .ok found => success (write found)
  | .error cause => failure cause

/-! ### Described failures -/

def asPair (document : Json) : Reading (UInt32 × UInt32) := do
  return (← get document "partition" asUInt32, ← get document "namespace" asUInt32)

/-- A failure without a source of a given kind and text. -/
def plainFailure (document : Json) (kind text : String) : Reading StoreError := do
  match kind with
  | "Io" => return .io (.reported text)
  | "Corruption" => return .corruption (.reported text)
  | "InvalidArgument" => return .invalidArgument (.reported text)
  | "InvalidValue" => return .invalidValue (.reported text)
  | "NotFound" => return .notFound (.reported text)
  | "UnsupportedFeature" => return .unsupported (.reported text)
  | "Temporary" => return .temporary text
  | "Precondition" => return .precondition (.reported text)
  | "Closed" => return .closed (.reported text)
  | "UniqueIdConflict" =>
    let (partitionId, namespaceId) ← asPair document
    return .idConflict partitionId namespaceId (← getWord document "waited_ms")
  | "IdPoolExhausted" =>
    let (partitionId, namespaceId) ← asPair document
    return .idsExhausted partitionId namespaceId (← getWord document "upper_bound")
  | "ScanFailed" =>
    return .scanFailed text (← getWord document "failures") (← getWord document "successes")
  | _ => malformed "kind of failure"

/-- A described failure whose sources are nested at most `depth` deep. -/
def readFailure : (depth : Nat) → Json → Reading StoreError
  | 0, _ => malformed "failure"
  | depth + 1, document => do
    let kind ← getStr document "kind"
    let text ← getOr document "msg" "" asStr
    if kind = "Persistence" then
      return .persistence (← getStr document "store")
        (← get document "source" (readFailure depth))
    else plainFailure document kind text

def asFailure (document : Json) : Reading StoreError := readFailure document.depth document

end GraphStore.Document
