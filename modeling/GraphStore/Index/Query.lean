import GraphStore.Action
import GraphStore.Double
import GraphStore.Index.Schema
import GraphStore.Index.Substitution

/-!
Contract: queries to external indexes.

Owns the builder with its checks, the raw query that is sent, and the filter on what
comes back. An external index is given by the operation that answers raw queries.
-/

namespace GraphStore

inductive ElementCategory where
  | vertex
  | edge
  | property
deriving DecidableEq, Repr

/-- The stem of key references in queries of a category. -/
def ElementCategory.stem : ElementCategory → String
  | vertex => "v."
  | edge => "e."
  | property => "p."

structure RawQuery where
  store : String
  query : String
  parameters : List Parameter
  offset : UInt64
  limit : Option UInt64
deriving Repr

structure IndexHit where
  element : UInt64
  score : Double
deriving DecidableEq, Repr

abbrev IndexProvider (σ : Type) := RawQuery → Action σ (List IndexHit)

structure IndexQuery where
  index : String
  query : String
  stem : String
  offset : UInt64
  limit : Option UInt64
  parameters : List Parameter
deriving Repr

structure IndexQueryBuilder where
  index : Option String
  query : Option String
  stem : Option String
  offset : UInt64
  limit : Option UInt64
  parameters : List Parameter
deriving Repr

namespace IndexQueryBuilder

def empty : IndexQueryBuilder := ⟨none, none, none, 0, none, []⟩

/-- A text that must be there and not be blank. -/
def nonBlank (what : String) : Option String → Result String
  | some text =>
    if Text.allBlank text then .error (.invalidArgument (.blank what)) else .ok text
  | none => .error (.invalidArgument (.blank what))

/-- The query of the gathered parts; references start with the stem of the category
unless another one is set. -/
def build (builder : IndexQueryBuilder) (category : ElementCategory) : Result IndexQuery := do
  let index ← nonBlank "index name" builder.index
  let query ← nonBlank "query" builder.query
  let stem ← match builder.stem with
    | some stem => nonBlank "element identifier" (some stem)
    | none => pure category.stem
  if builder.limit = some 0 then
    throw (.invalidArgument .zeroQueryLimit)
  return ⟨index, query, stem, builder.offset, builder.limit, builder.parameters⟩

end IndexQueryBuilder

namespace IndexQuery

variable {σ : Type}

/-- The raw query for an external index, its references replaced by field names. -/
def raw (query : IndexQuery) (schema : Schema) (unknown backingIndex : String) :
    Result RawQuery := do
  let text ← Substitution.substituteKeys query.query query.stem
    (schema.storageField? backingIndex) unknown
  return ⟨backingIndex, text, query.parameters, query.offset, query.limit⟩

def execute (query : IndexQuery) (schema : Schema) (options : IndexOptions)
    (provider : Option (IndexProvider σ)) : Action σ (List IndexHit) := do
  let index ← Action.ofResult (schema.index query.index)
  match index.indexType with
  | .mixed backingIndex =>
    match provider with
    | none => throw (.unsupported .indexProvider)
    | some provider =>
      provider (← Action.ofResult (query.raw schema options.unknownKeyName backingIndex))
  | other => throw (.invalidArgument (.notMixed index.name other.label))

end IndexQuery

namespace IndexQueryBuilder

variable {σ : Type}

/-- Builds and sends the query, and drops the elements that are removed. Writes staged
in a transaction have no bearing on what an external index finds. -/
def execute (builder : IndexQueryBuilder) (category : ElementCategory) (schema : Schema)
    (options : IndexOptions) (provider : Option (IndexProvider σ))
    (isRemoved : UInt64 → Bool) : Action σ (List IndexHit) := do
  let query ← Action.ofResult (builder.build category)
  let hits ← query.execute schema options provider
  return hits.filter fun hit => !isRemoved hit.element

end IndexQueryBuilder

end GraphStore
