import GraphStore.Bytes
import GraphStore.Document.Reading
import GraphStore.Encoding.Ordered
import GraphStore.KeyRange.Basic
import GraphStore.Paging
import GraphStore.Table

/-!
Contract: the contents of rows, and what selects among them, as documents.

Owns entries, rows, slices, key ranges, key filters and selectors. Byte strings are in
hexadecimal.
-/

namespace GraphStore.Document

/-! ### Plain content -/

def nat (value : Nat) : Json := .int value

def word (value : UInt64) : Json := .int value.toNat

def flag (value : Bool) : Json := .bool value

def hex (bytes : Bytes) : Json := .str bytes.hex

def optional {α : Type} (write : α → Json) : Option α → Json
  | some found => write found
  | none => .null

def list {α : Type} (write : α → Json) (items : List α) : Json := .arr (items.map write)

/-- What stands for an outcome without content. -/
def nothing (_ : Unit) : Json := .null

/-! ### Rows -/

def asEntry (document : Json) : Reading Entry := do
  match ← asArr document with
  | [column, value] => return ⟨← asHex column, ← asHexOrEmpty value⟩
  | [column] => return ⟨← asHex column, []⟩
  | _ => malformed "entry"

def asEntries (document : Json) : Reading (List Entry) := asList asEntry document

def getEntries (document : Json) (name : String) : Reading (List Entry) :=
  getList document name asEntry

def entry (entry : Entry) : Json := .arr [hex entry.column, hex entry.value]

def entries (found : List Entry) : Json := list entry found

def asRow (document : Json) : Reading KeyedRow := do
  match ← asArr document with
  | [key, found] => return ⟨← asHex key, ← asEntries found⟩
  | _ => malformed "row"

def row (row : KeyedRow) : Json := .arr [hex row.key, entries row.entries]

/-! ### Slices -/

/-- The bounds of a slice: a whole row, a stem, or a start and an end. -/
def asBounds (document : Json) : Reading Slice := do
  match opt document "full", opt document "prefix" with
  | some _, _ => return Slice.fullRow
  | none, some stem => return Slice.ofPrefix (← asHex stem)
  | none, none =>
    orRefuse (Slice.between (← getHex document "start") (← getHex document "end"))

def asSlice : Json → Reading Slice
  | .str _ => .ok Slice.fullRow
  | document => do
    let bounds ← asBounds document
    match ← get? document "limit" asNat with
    | some limit => orRefuse (bounds.withLimit limit)
    | none => return bounds

/-- The slice in a field; a field left out is the whole row. -/
def getSlice (document : Json) (name : String) : Reading Slice :=
  getOr document name Slice.fullRow asSlice

def sliceFields (slice : Slice) : List (String × Json) :=
  [("start", hex slice.start), ("end", hex slice.stop), ("limit", optional nat slice.limit),
    ("has_limit", flag slice.limit.isSome)]

def slice (slice : Slice) : Json := .obj (sliceFields slice)

/-! ### Keys -/

/-- All keys, the keys from a start on, or those between a start and an end. -/
def asRange : Json → Reading KeyRange
  | .str _ => .ok KeyRange.full
  | document => do
    let start ← getHex document "start"
    match ← get? document "end" asHex with
    | some stop => orRefuse (KeyRange.between start stop)
    | none => return KeyRange.startingAt start

/-- The range in a field; a field left out is the range of all keys. -/
def getRange (document : Json) (name : String) : Reading KeyRange :=
  getOr document name KeyRange.full asRange

def range (range : KeyRange) : Json := .arr [hex range.start, optional hex range.stop]

/-- The keys that read as a number with the given remainder. -/
def remainderFilter (modulus remainder : Nat) : KeyFilter := fun key =>
  match Encoding.leadingUInt64 key with
  | .ok number => number.toNat % modulus = remainder
  | .error _ => false

/-- All keys, none, those of a stem, of a remainder, or of a length. -/
def asFilter : Json → Reading KeyFilter
  | .str name => .ok fun _ => name = "all"
  | document => do
    match opt document "prefix", opt document "mod", opt document "len" with
    | some stem, _, _ =>
      let stem ← asHex stem
      return fun key => stem.isPrefixOf key
    | _, some pair, _ =>
      match ← asList asNat pair with
      | [modulus, remainder] => return remainderFilter modulus remainder
      | _ => malformed "filter"
    | _, _, some length =>
      let length ← asNat length
      return fun key => key.length = length
    | _, _, _ => malformed "filter"

/-- The filter in a field; a field left out lets every key pass. -/
def getFilter (document : Json) (name : String) : Reading KeyFilter :=
  getOr document name (fun _ => true) asFilter

/-- The selector of a filter and a limit, which may both be left out. -/
def asSelector (document : Json) : Reading Selector := do
  let filter ← getFilter document "filter"
  orRefuse (Selector.new filter (← getOr document "limit" (Word.count 64 - 1) asNat))

end GraphStore.Document
