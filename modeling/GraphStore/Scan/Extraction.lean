import GraphStore.Index.Descriptor
import GraphStore.Value.Codec

/-!
Contract: reading indexed values out of the rows of elements.

Owns the type of such readers and two simple kinds: one value per column of a stem,
and one combination of the values of given columns.
-/

namespace GraphStore

/-- The combinations of values that an element holds for the fields of an index. -/
abbrev Extractor := IndexDescriptor → UInt64 → List Entry → Result (List (List Value))

namespace Extractor

/-- How the bytes of a cell stand for a value. -/
inductive CellForm where
  | text
  | bytes
  | tagged
deriving DecidableEq, Repr

def CellForm.read (form : CellForm) (content : Bytes) : Result Value :=
  match form with
  | text =>
    match content.toString? with
    | some decoded => .ok (.text decoded)
    | none => .error (.invalidValue (.reported "value is not utf-8"))
  | bytes => .ok (.bytes content)
  | tagged => Value.decodeTagged content

/-- One combination of a single value for each entry whose column starts with a stem. -/
def ofStem (stem : Bytes) (form : CellForm) : Extractor := fun _ _ entries =>
  (entries.filter fun entry => stem.isPrefixOf entry.column).mapM fun entry => do
    return [← form.read entry.value]

/-- The values of columns in order, or none if a column is missing. -/
def readColumns (form : CellForm) (entries : List Entry) :
    List Bytes → Result (Option (List Value))
  | [] => .ok (some [])
  | column :: columns => do
    match entries.find? fun entry => entry.column = column with
    | none => return none
    | some entry =>
      let value ← form.read entry.value
      return (← readColumns form entries columns).map (value :: ·)

def ofColumns (columns : List Bytes) (form : CellForm) : Extractor := fun _ _ entries => do
  return (← readColumns form entries columns).toList

end Extractor

end GraphStore
