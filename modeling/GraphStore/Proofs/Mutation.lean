import GraphStore.Proofs.Rows

/-!
Contract: a consolidated mutation stands for the changes it was put together from.

Owns the effect of a mutation on a row (`Mutation.applyTo`) and what it is column by column: the
staged value where something is staged, and what the row holds elsewhere. Staging one more
change, both halves of a write, or a later mutation has the effect of the changes one after the
other, however many columns repeat among them.
-/

namespace GraphStore

namespace Mutation

/-- The row after the staged changes. -/
def applyTo (mutation : Mutation) (row : Row) : Row :=
  Row.change row mutation.addedEntries mutation.deletedColumns

/-- A column shows what is staged for it, and what the row holds where nothing is staged. -/
theorem find?_applyTo (mutation : Mutation) (row : Row) (column : Bytes) :
    (mutation.applyTo row).find? column =
      (mutation.lookup column).getD (row.find? column) := by
  have added : (mutation.applyTo row).find? column = (mutation.additions.find? column).or
      ((mutation.deletedColumns.foldl (fun (row : Row) column => row.erase column)
        row).find? column) := by
    rw [applyTo, Row.change, addedEntries, List.foldl_map]
    exact OrderedMap.find?_foldl_insert mutation.additions.ascending _ column
  rw [added, lookup]
  cases mutation.additions.find? column with
  | some value => rfl
  | none =>
      rw [Option.none_or]
      cases deleted : mutation.deletions.contains column with
      | true =>
          have member : column ∈ mutation.deletedColumns := OrderedMap.mem_keys.2 deleted
          exact OrderedMap.find?_foldl_erase_of_mem member row
      | false =>
          have absent : column ∉ mutation.deletedColumns := fun member =>
            absurd (OrderedMap.mem_keys.1 member) (Bool.eq_false_iff.1 deleted)
          exact OrderedMap.find?_foldl_erase_of_not_mem absent row

/-! ### One more change -/

/-- A staged addition shows in its column alone. -/
theorem lookup_add (mutation : Mutation) (entry : Entry) (column : Bytes) :
    (mutation.add entry).lookup column =
      if column = entry.column then some (some entry.value) else mutation.lookup column := by
  simp only [lookup, add, OrderedMap.contains, OrderedMap.find?_insert, OrderedMap.find?_erase]
  by_cases same : column = entry.column
  · simp only [if_pos same]
  · simp only [if_neg same]
    rfl

/-- A staged deletion shows in its column alone. -/
theorem lookup_delete (mutation : Mutation) (deleted column : Bytes) :
    (mutation.delete deleted).lookup column =
      if column = deleted then some none else mutation.lookup column := by
  simp only [lookup, delete, OrderedMap.contains, OrderedMap.find?_insert,
    OrderedMap.find?_erase]
  by_cases same : column = deleted
  · simp only [if_pos same]
    rfl
  · simp only [if_neg same]
    rfl

theorem applyTo_add (mutation : Mutation) (entry : Entry) (row : Row) :
    (mutation.add entry).applyTo row =
      (mutation.applyTo row).insert entry.column entry.value := by
  refine OrderedMap.ext_find? fun column => ?_
  rw [find?_applyTo, lookup_add, OrderedMap.find?_insert, find?_applyTo]
  split <;> rfl

theorem applyTo_delete (mutation : Mutation) (deleted : Bytes) (row : Row) :
    (mutation.delete deleted).applyTo row = (mutation.applyTo row).erase deleted := by
  refine OrderedMap.ext_find? fun column => ?_
  rw [find?_applyTo, lookup_delete, OrderedMap.find?_erase, find?_applyTo]
  split <;> rfl

/-! ### Many changes -/

theorem applyTo_empty (row : Row) : empty.applyTo row = row := rfl

theorem applyTo_foldl_add (additions : List Entry) (mutation : Mutation) (row : Row) :
    (additions.foldl add mutation).applyTo row =
      additions.foldl (fun row entry => row.insert entry.column entry.value)
        (mutation.applyTo row) := by
  induction additions generalizing mutation with
  | nil => rfl
  | cons entry additions inductionHypothesis =>
      rw [List.foldl_cons, inductionHypothesis, applyTo_add, List.foldl_cons]

theorem applyTo_foldl_delete (deletions : List Bytes) (mutation : Mutation) (row : Row) :
    (deletions.foldl delete mutation).applyTo row =
      deletions.foldl (fun row column => row.erase column) (mutation.applyTo row) := by
  induction deletions generalizing mutation with
  | nil => rfl
  | cons column deletions inductionHypothesis =>
      rw [List.foldl_cons, inductionHypothesis, applyTo_delete, List.foldl_cons]

theorem applyTo_stage (mutation : Mutation) (additions : List Entry) (deletions : List Bytes)
    (row : Row) :
    (mutation.stage additions deletions).applyTo row =
      Row.change (mutation.applyTo row) additions deletions := by
  rw [stage, applyTo_foldl_add, applyTo_foldl_delete, Row.change]

/-- A mutation of raw halves does what they do: deletions first. -/
theorem applyTo_ofParts (additions : List Entry) (deletions : List Bytes) (row : Row) :
    (ofParts additions deletions).applyTo row = Row.change row additions deletions := by
  rw [ofParts, applyTo_stage, applyTo_empty]

/-- A merged mutation does what both of its parts do in their order. -/
theorem applyTo_merge (earlier later : Mutation) (row : Row) :
    (earlier.merge later).applyTo row = later.applyTo (earlier.applyTo row) :=
  applyTo_stage earlier later.addedEntries later.deletedColumns row

end Mutation

end GraphStore
