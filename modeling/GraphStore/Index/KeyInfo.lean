import GraphStore.Json.Basic
import GraphStore.OrderedMap
import GraphStore.Value.Basic

/-!
Contract: what is known about the keys of an index.

Owns cardinalities, parameters, the information on a key, and the registry of keys by
index and store.
-/

namespace GraphStore

/-- How many values a key may have on one element. -/
inductive Cardinality where
  | single
  | list
  | set
deriving DecidableEq, Repr

/-- A named setting of a key or a query. -/
structure Parameter where
  key : String
  value : Json
deriving Repr

structure KeyInfo where
  dataType : DataType
  cardinality : Cardinality
  parameters : List Parameter
deriving Repr

namespace KeyInfo

def new (dataType : DataType) (cardinality : Cardinality) : KeyInfo :=
  ⟨dataType, cardinality, []⟩

def withParameter (info : KeyInfo) (parameter : Parameter) : KeyInfo :=
  { info with parameters := info.parameters ++ [parameter] }

/-- The value of the first setting of a name. -/
def parameter? (info : KeyInfo) (key : String) : Option Json :=
  (info.parameters.find? fun parameter => parameter.key = key).map Parameter.value

end KeyInfo

abbrev IndexKeys := OrderedMap String (OrderedMap String KeyInfo)

abbrev KeyRegistry := OrderedMap String IndexKeys

namespace IndexKeys

def find? (keys : IndexKeys) (store key : String) : Option KeyInfo :=
  (OrderedMap.find? keys store).bind fun found => OrderedMap.find? found key

def hasStore (keys : IndexKeys) (store : String) : Bool := OrderedMap.contains keys store

end IndexKeys

namespace KeyRegistry

/-- The registry with information on a key, in place of an earlier one. -/
def register (registry : KeyRegistry) (index store key : String) (info : KeyInfo) :
    KeyRegistry :=
  let stores := OrderedMap.findD registry index .empty
  let keys := OrderedMap.findD stores store .empty
  OrderedMap.insert registry index (OrderedMap.insert stores store (keys.insert key info))

def index? (registry : KeyRegistry) (index : String) : Option IndexKeys :=
  OrderedMap.find? registry index

end KeyRegistry

end GraphStore
