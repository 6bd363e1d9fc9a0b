import GraphStore.Proofs.Manager.Calls

/-!
Contract: what single rows hold after changes.

Owns the look-up equations of filters and removals, the row of a table behind a change, and the
row of a store behind a list of changes (`Tables.row_applyAll`): it depends on the changes of that
row alone, in their order. Tables without empty rows are determined by their rows.
-/

namespace GraphStore

/-! ### Maps -/

namespace OrderedMap

variable {κ ν : Type} [LT κ]

theorem eq_empty_of_isEmpty {map : OrderedMap κ ν} (isEmpty : map.isEmpty = true) :
    map = empty := by
  obtain ⟨entries, ascending⟩ := map
  cases List.isEmpty_iff.1 isEmpty
  rfl

variable [DecidableEq κ]

theorem find?_foldl_erase_of_not_mem {keys : List κ} {key : κ} (absent : key ∉ keys)
    (map : OrderedMap κ ν) :
    (keys.foldl (fun map key => map.erase key) map).find? key = map.find? key := by
  induction keys generalizing map with
  | nil => rfl
  | cons head tail inductionHypothesis =>
      obtain ⟨apart, notInTail⟩ := not_or.1 (mt List.mem_cons.2 absent)
      rw [List.foldl_cons, inductionHypothesis notInTail, find?_erase, if_neg apart]

theorem find?_foldl_erase_of_mem {keys : List κ} {key : κ} (member : key ∈ keys)
    (map : OrderedMap κ ν) :
    (keys.foldl (fun map key => map.erase key) map).find? key = none := by
  induction keys generalizing map with
  | nil => exact absurd member List.not_mem_nil
  | cons head tail inductionHypothesis =>
      rw [List.foldl_cons]
      by_cases inTail : key ∈ tail
      · exact inductionHypothesis inTail _
      · have atHead : key = head := (List.mem_cons.1 member).resolve_right inTail
        rw [find?_foldl_erase_of_not_mem inTail, find?_erase, if_pos atHead]

variable [LE κ] [Std.LawfulOrderLT κ]

theorem mem_keys {map : OrderedMap κ ν} {key : κ} : key ∈ map.keys ↔ map.contains key = true := by
  rw [contains, Option.isSome_iff_exists, keys, List.mem_map]
  constructor
  · rintro ⟨⟨held, value⟩, member, rfl⟩
    exact ⟨value, find?_eq_some_iff.2 member⟩
  · rintro ⟨value, found⟩
    exact ⟨(key, value), find?_eq_some_iff.1 found, rfl⟩

/-- Keeping some keys keeps what is held under them. -/
theorem find?_filter (map : OrderedMap κ ν) (keep : κ → Bool) (key : κ) :
    (map.filter fun key _ => keep key).find? key =
      if keep key = true then map.find? key else none := by
  refine Option.ext fun value => ?_
  rw [find?_eq_some_iff]
  show (key, value) ∈ map.entries.filter (fun entry => keep entry.1) ↔ _
  rw [List.mem_filter, ← find?_eq_some_iff]
  by_cases kept : keep key = true
  · rw [if_pos kept]
    exact and_iff_left kept
  · rw [if_neg kept]
    exact ⟨fun both => absurd both.2 kept, nofun⟩

/-- A front of the entries holds what all of them hold for its own keys. -/
theorem find?_front {map front : OrderedMap κ ν} {back : List (κ × ν)}
    (entries : map.entries = front.entries ++ back) (key : κ) :
    front.find? key = if key ∈ front.keys then map.find? key else none := by
  cases found : front.find? key with
  | some value =>
      have listed : key ∈ front.keys := mem_keys.2 (Option.isSome_iff_exists.2 ⟨value, found⟩)
      rw [find?] at found
      rw [if_pos listed, find?, entries, List.lookup_append, found, Option.some_or]
  | none =>
      refine (if_neg fun listed => ?_).symm
      rw [mem_keys, contains, found] at listed
      exact Bool.false_ne_true listed

end OrderedMap

/-! ### Tables -/

namespace Table

/-- A change reaches its row and no other one. -/
theorem row_change (table : Table) (key : Bytes) (additions : List Entry)
    (deletions : List Bytes) (probe : Bytes) :
    Table.row (Table.change table key additions deletions) probe =
      if probe = key then Row.change (Table.row table key) additions deletions
      else Table.row table probe := by
  rw [Table.change, putRow]
  split
  · rename_i isEmpty
    rw [Table.row, OrderedMap.findD, OrderedMap.find?_erase]
    split
    · exact (OrderedMap.eq_empty_of_isEmpty isEmpty).symm
    · rfl
  · rw [Table.row, OrderedMap.findD, OrderedMap.find?_insert]
    split <;> rfl

theorem find?_eq_of_row {table : Table} (tidy : table.Tidy) (key : Bytes) :
    table.find? key =
      if (Table.row table key).isEmpty then none else some (Table.row table key) := by
  rw [Table.row, OrderedMap.findD]
  cases found : table.find? key with
  | none => rfl
  | some row => rw [Option.getD_some, tidy key row found]; rfl

/-- Tables without empty rows are equal if their rows are. -/
theorem Tidy.ext {left right : Table} (leftTidy : left.Tidy) (rightTidy : right.Tidy)
    (rows : ∀ key, Table.row left key = Table.row right key) : left = right :=
  OrderedMap.ext_find? fun key => by
    rw [find?_eq_of_row leftTidy, find?_eq_of_row rightTidy, rows]

end Table

/-! ### Tables of all stores -/

namespace RowChange

def touches (store : String) (key : Bytes) (change : RowChange) : Bool :=
  change.store = store && change.key = key

theorem touches_iff {store : String} {key : Bytes} {change : RowChange} :
    change.touches store key = true ↔ change.store = store ∧ change.key = key := by
  simp [touches]

def onRow (row : Row) (change : RowChange) : Row :=
  Row.change row change.additions change.deletions

end RowChange

namespace Tables

/-- The row of a store; an absent row has no entries. -/
def row (tables : Tables) (store : String) (key : Bytes) : Row :=
  Table.row (Tables.table tables store) key

/-- A row change shows in its own row alone. -/
theorem row_apply (change : RowChange) (tables : Tables) (store : String) (key : Bytes) :
    Tables.row (change.apply tables) store key =
      if change.touches store key then change.onRow (Tables.row tables store key)
      else Tables.row tables store key := by
  show Table.row (Tables.table (Tables.change tables change.store change.key change.additions
    change.deletions) store) key = _
  rw [table_change]
  by_cases ofStore : change.store = store
  · subst ofStore
    rw [if_pos rfl, Table.row_change]
    by_cases ofKey : change.key = key
    · subst ofKey
      simp [RowChange.touches, RowChange.onRow, Tables.row]
    · simp [RowChange.touches, ofKey, Ne.symm ofKey, Tables.row]
  · simp [RowChange.touches, ofStore, Ne.symm ofStore, Tables.row]

/-- A row depends on its own changes only. -/
theorem row_applyAll (changes : List RowChange) (tables : Tables) (store : String)
    (key : Bytes) :
    Tables.row (Log.applyAll changes tables) store key =
      (changes.filter (RowChange.touches store key)).foldl RowChange.onRow
        (Tables.row tables store key) := by
  induction changes generalizing tables with
  | nil => rfl
  | cons change changes inductionHypothesis =>
      show Tables.row (Log.applyAll changes (change.apply tables)) store key = _
      rw [inductionHypothesis, row_apply, List.filter_cons]
      split <;> rfl

/-- Tables without empty rows that hold the same rows agree. -/
theorem Agree.of_rows {left right : Tables} (leftTidy : left.Tidy) (rightTidy : right.Tidy)
    (rows : ∀ store key, Tables.row left store key = Tables.row right store key) :
    Agree left right :=
  fun store => (leftTidy store).ext (rightTidy store) (rows store)

end Tables

end GraphStore
