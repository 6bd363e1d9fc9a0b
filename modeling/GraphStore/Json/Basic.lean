import GraphStore.Bytes
import GraphStore.Double
import GraphStore.OrderedMap

/-!
Contract: JSON documents as parameter values, descriptors and settings hold them.

Owns the document type, access to its parts, and documents that stand for records and for
alternatives. Numbers are integers of 64 bits or doubles. The fields of an object ascend by name
when it is built by `object`. A record has two forms, an object by field name and an array in field
order, and so has an alternative, its bare name and an object with its name as the only field.
Fields that a record does not know are ignored; an array may not be longer than the record.
-/

namespace GraphStore

inductive Json where
  | null
  | bool (flag : Bool)
  | int (value : Int)
  | double (value : Double)
  | str (text : String)
  | arr (items : List Json)
  | obj (fields : List (String × Json))
deriving Repr, Inhabited

namespace Json

/-- The object with the given fields; of several fields of one name the last counts. -/
def object (fields : List (String × Json)) : Json :=
  .obj (OrderedMap.ofList fields).entries

def field? (document : Json) (name : String) : Option Json :=
  match document with
  | .obj fields => fields.lookup name
  | _ => none

def asString? : Json → Option String
  | .str text => some text
  | _ => none

def asBool? : Json → Option Bool
  | .bool flag => some flag
  | _ => none

def asArray? : Json → Option (List Json)
  | .arr items => some items
  | _ => none

/-- A natural number below `2 ^ 64`. -/
def asUInt64? : Json → Option UInt64
  | .int value =>
    if 0 ≤ value ∧ value < Word.count 64 then some (UInt64.ofNat value.toNat) else none
  | _ => none

/-- A natural number below 256. -/
def asUInt8? : Json → Option UInt8
  | .int value => if 0 ≤ value ∧ value < 256 then some (UInt8.ofNat value.toNat) else none
  | _ => none

def ofUInt64 (value : UInt64) : Json := .int value.toNat

mutual

/-- How deep a document is nested, at least one. -/
def depth : Json → Nat
  | .arr items => depthOfItems items + 1
  | .obj fields => depthOfFields fields + 1
  | _ => 1

def depthOfItems : List Json → Nat
  | [] => 0
  | item :: items => max item.depth (depthOfItems items)

def depthOfFields : List (String × Json) → Nat
  | [] => 0
  | (_, value) :: fields => max value.depth (depthOfFields fields)

end

/-! ### Records and alternatives -/

/-- The given fields of a record document, each `none` when it is left out. -/
def record? (names : List String) : Json → Option (List (Option Json))
  | .obj fields => some (names.map fun name => fields.lookup name)
  | .arr items =>
    if items.length ≤ names.length then
      some ((List.range names.length).map fun index => items[index]?)
    else none
  | _ => none

/-- The fields of a record document that lacks none of them. -/
def completeRecord? (names : List String) (document : Json) : Option (List Json) := do
  (← document.record? names).mapM id

def alternative? : Json → Option (String × Option Json)
  | .str name => some (name, none)
  | .obj [(name, content)] => some (name, some content)
  | _ => none

/-- The name of an alternative without content. -/
def bareAlternative? (document : Json) : Option String := do
  match ← document.alternative? with
  | (name, none) | (name, some .null) => some name
  | _ => none

def fieldOr? {α : Type} (default : α) (read? : Json → Option α) : Option Json → Option α
  | some document => read? document
  | none => some default

/-- An array whose items `read?` reads. -/
def list? {α : Type} (read? : Json → Option α) (document : Json) : Option (List α) := do
  (← document.asArray?).mapM read?

end Json

end GraphStore
