import GraphStore.Proofs.Mutation

/-!
Contract: mutations put together by any history of changes.

Owns the histories by which a mutation comes about (`MutationHistory`) and their operations in the
order of staging. A mutation built by a history keeps additions and deletions apart
(`separate_mutation`), stages for each column what its last operation says (`lookup_mutation`), and
has the effect on a row of all operations one after the other. Where the two halves are apart, they
may be applied in either order (`changeAdded_eq_change`).
-/

namespace GraphStore

/-! ### Single operations -/

inductive ColumnEdit where
  | add (entry : Entry)
  | delete (column : Bytes)
deriving DecidableEq

namespace ColumnEdit

def column : ColumnEdit → Bytes
  | add entry => entry.column
  | delete column => column

/-- What the column holds after the change. -/
def value? : ColumnEdit → Option Bytes
  | add entry => some entry.value
  | delete _ => none

def onRow (row : Row) : ColumnEdit → Row
  | add entry => row.insert entry.column entry.value
  | delete column => row.erase column

/-- The mutation with the change staged on top. -/
def onMutation (mutation : Mutation) : ColumnEdit → Mutation
  | add entry => mutation.add entry
  | delete column => mutation.delete column

/-- The last of several changes that reaches a column. -/
def last? (column : Bytes) (edits : List ColumnEdit) : Option ColumnEdit :=
  (edits.filter (·.column = column)).getLast?

theorem last?_append (column : Bytes) (front back : List ColumnEdit) :
    last? column (front ++ back) = (last? column back).or (last? column front) := by
  simp [last?, List.filter_append, List.getLast?_append]

theorem last?_singleton (column : Bytes) (edit : ColumnEdit) :
    last? column [edit] = if edit.column = column then some edit else none := by
  by_cases same : edit.column = column <;> simp [last?, same]

theorem last?_cons (column : Bytes) (edit : ColumnEdit) (edits : List ColumnEdit) :
    last? column (edit :: edits) =
      (last? column edits).or (if edit.column = column then some edit else none) := by
  rw [← last?_singleton]
  exact last?_append column [edit] edits

theorem mem_of_last? {column : Bytes} {edits : List ColumnEdit} {edit : ColumnEdit}
    (found : last? column edits = some edit) : edit ∈ edits ∧ edit.column = column := by
  simpa using List.mem_filter.1 (List.mem_of_getLast? found)

theorem last?_eq_none {column : Bytes} {edits : List ColumnEdit} :
    last? column edits = none ↔ ∀ edit ∈ edits, edit.column ≠ column := by
  simp [last?]

/-- Where each edit decides what is shown of its column, the last one on a column counts. -/
theorem shown_foldl {τ α : Type} {apply : τ → ColumnEdit → τ} (shown : τ → α)
    (decided : ColumnEdit → α) {column : Bytes}
    (decides : ∀ state edit, shown (apply state edit) =
      if edit.column = column then decided edit else shown state)
    (edits : List ColumnEdit) (state : τ) :
    shown (edits.foldl apply state) = ((last? column edits).map decided).getD (shown state) := by
  induction edits generalizing state with
  | nil => rfl
  | cons edit edits inductionHypothesis =>
      rw [List.foldl_cons, inductionHypothesis, decides, last?_cons]
      cases last? column edits with
      | some found => rfl
      | none => split <;> rfl

end ColumnEdit

namespace Mutation

open ColumnEdit

theorem lookup_onMutation (mutation : Mutation) (edit : ColumnEdit) (column : Bytes) :
    (edit.onMutation mutation).lookup column =
      if edit.column = column then some edit.value? else mutation.lookup column := by
  cases edit with
  | add entry => simp [onMutation, lookup_add, ColumnEdit.column, value?, eq_comm]
  | delete deleted => simp [onMutation, lookup_delete, ColumnEdit.column, value?, eq_comm]

/-! ### The two halves as operations -/

/-- Raw halves as single operations, deletions first. -/
def editsOf (additions : List Entry) (deletions : List Bytes) : List ColumnEdit :=
  deletions.map .delete ++ additions.map .add

theorem stage_eq_foldl (mutation : Mutation) (additions : List Entry) (deletions : List Bytes) :
    mutation.stage additions deletions =
      (editsOf additions deletions).foldl onMutation mutation := by
  simp only [stage, editsOf, List.foldl_append, List.foldl_map]
  rfl

/-- A change of a row is the sequence of its edits. -/
theorem change_eq_foldl (row : Row) (additions : List Entry) (deletions : List Bytes) :
    Row.change row additions deletions = (editsOf additions deletions).foldl onRow row := by
  simp only [Row.change, editsOf, List.foldl_append, List.foldl_map]
  rfl

/-- Staged on top of a mutation, the last operation on a column counts. -/
theorem lookup_foldl (edits : List ColumnEdit) (mutation : Mutation) (column : Bytes) :
    (edits.foldl onMutation mutation).lookup column =
      ((last? column edits).map value?).or (mutation.lookup column) := by
  rw [shown_foldl (fun before : Mutation => before.lookup column) (fun edit => some edit.value?)
    fun before edit => lookup_onMutation before edit column]
  cases last? column edits <;> rfl

/-- What is staged for a column is the last operation on it among the two halves. -/
theorem lookup_eq_last? (mutation : Mutation) (column : Bytes) :
    mutation.lookup column =
      (last? column (editsOf mutation.addedEntries mutation.deletedColumns)).map value? := by
  have addition : ∀ value, mutation.additions.find? column = some value ↔
      ⟨column, value⟩ ∈ mutation.addedEntries := by
    intro value
    rw [OrderedMap.find?_eq_some_iff, addedEntries, List.mem_map]
    constructor
    · exact fun member => ⟨_, member, rfl⟩
    · rintro ⟨⟨key, held⟩, member, same⟩
      obtain ⟨rfl, rfl⟩ := Entry.mk.inj same
      exact member
  rw [editsOf, last?_append, lookup]
  cases added : last? column (mutation.addedEntries.map .add) with
  | some edit =>
      obtain ⟨member, rfl⟩ := mem_of_last? added
      obtain ⟨entry, listed, rfl⟩ := List.mem_map.1 member
      have staged : mutation.additions.find? entry.column = some entry.value :=
        (addition entry.value).2 listed
      rw [ColumnEdit.column, staged]
      rfl
  | none =>
      have none : mutation.additions.find? column = none := by
        refine Option.eq_none_iff_forall_ne_some.2 fun value staged => ?_
        have listed := List.mem_map_of_mem (f := ColumnEdit.add) ((addition value).1 staged)
        exact last?_eq_none.1 added _ listed rfl
      rw [none, Option.none_or]
      cases deleted : last? column (mutation.deletedColumns.map .delete) with
      | some edit =>
          obtain ⟨member, rfl⟩ := mem_of_last? deleted
          obtain ⟨key, listed, rfl⟩ := List.mem_map.1 member
          rw [ColumnEdit.column, OrderedMap.mem_keys.1 listed]
          rfl
      | none =>
          have absent : ¬ mutation.deletions.contains column = true := fun contained =>
            last?_eq_none.1 deleted _
              (List.mem_map_of_mem (f := ColumnEdit.delete) (OrderedMap.mem_keys.2 contained)) rfl
          simp [absent]

theorem lookup_merge (earlier later : Mutation) (column : Bytes) :
    (earlier.merge later).lookup column = (later.lookup column).or (earlier.lookup column) := by
  rw [merge, stage_eq_foldl, lookup_foldl, ← lookup_eq_last?]

/-! ### Halves that are apart -/

/-- No column is both added and deleted. -/
def Separate (mutation : Mutation) : Prop :=
  ∀ entry ∈ mutation.addedEntries, entry.column ∉ mutation.deletedColumns

theorem separate_iff {mutation : Mutation} : mutation.Separate ↔
    ∀ column, mutation.deletions.contains column = true →
      mutation.additions.find? column = none := by
  constructor
  · intro separate column deleted
    refine Option.eq_none_iff_forall_ne_some.2 fun value added => ?_
    have listed : ⟨column, value⟩ ∈ mutation.addedEntries :=
      List.mem_map_of_mem (OrderedMap.find?_eq_some_iff.1 added)
    exact separate _ listed (OrderedMap.mem_keys.2 deleted)
  · intro apart entry listed deleted
    obtain ⟨⟨column, value⟩, member, rfl⟩ := List.mem_map.1 listed
    have absent := apart column (OrderedMap.mem_keys.1 deleted)
    rw [OrderedMap.find?_eq_some_iff.2 member] at absent
    exact nomatch absent

theorem Separate.onMutation {mutation : Mutation} (separate : mutation.Separate)
    (edit : ColumnEdit) : (edit.onMutation mutation).Separate := by
  rw [separate_iff] at separate ⊢
  intro column
  cases edit with
  | add entry =>
      simp only [ColumnEdit.onMutation, add, OrderedMap.contains, OrderedMap.find?_erase,
        OrderedMap.find?_insert]
      split
      · simp
      · exact separate column
  | delete deleted =>
      simp only [ColumnEdit.onMutation, delete, OrderedMap.contains, OrderedMap.find?_erase,
        OrderedMap.find?_insert]
      split
      · simp
      · exact separate column

theorem Separate.stage {mutation : Mutation} (separate : mutation.Separate)
    (additions : List Entry) (deletions : List Bytes) :
    (mutation.stage additions deletions).Separate := by
  rw [stage_eq_foldl]
  induction editsOf additions deletions generalizing mutation with
  | nil => exact separate
  | cons edit edits inductionHypothesis => exact inductionHypothesis (separate.onMutation edit)

end Mutation

/-- The row after additions and then deletions. -/
def Row.changeAdded (row : Row) (additions : List Entry) (deletions : List Bytes) : Row :=
  deletions.foldl (fun row column => row.erase column)
    (additions.foldl (fun row entry => row.insert entry.column entry.value) row)

/-- Halves that are apart have one effect in either order. -/
theorem Mutation.Separate.changeAdded_eq_change {mutation : Mutation}
    (separate : mutation.Separate) (row : Row) :
    Row.changeAdded row mutation.addedEntries mutation.deletedColumns = mutation.applyTo row := by
  refine OrderedMap.ext_find? fun column => ?_
  have added : (mutation.addedEntries.foldl
      (fun (row : Row) entry => row.insert entry.column entry.value) row).find? column =
        (mutation.additions.find? column).or (row.find? column) := by
    rw [addedEntries, List.foldl_map]
    exact OrderedMap.find?_foldl_insert mutation.additions.ascending row column
  rw [find?_applyTo, lookup, Row.changeAdded]
  by_cases deleted : column ∈ mutation.deletedColumns
  · have contained := OrderedMap.mem_keys.1 deleted
    rw [OrderedMap.find?_foldl_erase_of_mem deleted, separate_iff.1 separate column contained,
      if_pos contained]
    rfl
  · have contained := mt OrderedMap.mem_keys.2 deleted
    rw [OrderedMap.find?_foldl_erase_of_not_mem deleted, added, if_neg contained]
    cases mutation.additions.find? column <;> rfl

/-! ### Tables -/

namespace Table

theorem row_putRow (table : Table) (key : Bytes) (row : Row) :
    Table.row (Table.putRow table key row) key = row := by
  rw [putRow, Table.row, OrderedMap.findD]
  split
  · rename_i isEmpty
    rw [OrderedMap.find?_erase, if_pos rfl]
    exact (OrderedMap.eq_empty_of_isEmpty isEmpty).symm
  · rw [OrderedMap.find?_insert, if_pos rfl]
    rfl

/-- Of two rows put under one key the later one counts, also where one of them is dropped. -/
theorem putRow_putRow (table : Table) (key : Bytes) (first second : Row) :
    Table.putRow (Table.putRow table key first) key second = Table.putRow table key second := by
  refine OrderedMap.ext_find? fun probe => ?_
  by_cases same : probe = key <;> unfold putRow <;> split <;> split <;>
    simp [OrderedMap.find?_erase, OrderedMap.find?_insert, same]

/-- The table after the staged changes of one row. -/
def changeBy (table : Table) (key : Bytes) (mutation : Mutation) : Table :=
  Table.change table key mutation.addedEntries mutation.deletedColumns

theorem changeBy_eq (table : Table) (key : Bytes) (mutation : Mutation) :
    changeBy table key mutation = Table.putRow table key (mutation.applyTo (Table.row table key)) :=
  rfl

theorem changeBy_merge (table : Table) (key : Bytes) (earlier later : Mutation) :
    changeBy table key (earlier.merge later) = changeBy (changeBy table key earlier) key later := by
  simp only [changeBy_eq, row_putRow, putRow_putRow, Mutation.applyTo_merge]

theorem changeBy_ofParts (table : Table) (key : Bytes) (additions : List Entry)
    (deletions : List Bytes) :
    changeBy table key (.ofParts additions deletions) =
      Table.change table key additions deletions := by
  rw [changeBy_eq, Mutation.applyTo_ofParts, Table.change]

end Table

/-! ### Histories -/

/-- How a mutation comes about: from raw halves, which may be empty and may repeat columns, by one
more operation, or by another mutation on top. -/
inductive MutationHistory where
  | ofParts (additions : List Entry) (deletions : List Bytes)
  | add (before : MutationHistory) (entry : Entry)
  | delete (before : MutationHistory) (column : Bytes)
  | merge (earlier later : MutationHistory)

namespace MutationHistory

def mutation : MutationHistory → Mutation
  | ofParts additions deletions => .ofParts additions deletions
  | add before entry => before.mutation.add entry
  | delete before column => before.mutation.delete column
  | merge earlier later => earlier.mutation.merge later.mutation

/-- All operations of the history in the order of staging. -/
def edits : MutationHistory → List ColumnEdit
  | ofParts additions deletions => Mutation.editsOf additions deletions
  | add before entry => before.edits ++ [.add entry]
  | delete before column => before.edits ++ [.delete column]
  | merge earlier later => earlier.edits ++ later.edits

/-- However a mutation comes about, no column is in both of its halves. -/
theorem separate_mutation (history : MutationHistory) : history.mutation.Separate := by
  induction history with
  | ofParts additions deletions =>
      have nothing : Mutation.empty.Separate := nofun
      exact nothing.stage additions deletions
  | add before entry separate => exact separate.onMutation (.add entry)
  | delete before column separate => exact separate.onMutation (.delete column)
  | merge earlier later separate _ =>
      exact separate.stage later.mutation.addedEntries later.mutation.deletedColumns

/-- What is staged for a column is what its last edit says. -/
theorem lookup_mutation (history : MutationHistory) (column : Bytes) :
    history.mutation.lookup column =
      (ColumnEdit.last? column history.edits).map ColumnEdit.value? := by
  induction history with
  | ofParts additions deletions =>
      rw [mutation, Mutation.ofParts, Mutation.stage_eq_foldl, Mutation.lookup_foldl, edits]
      exact Option.or_none
  | add before entry inductionHypothesis =>
      show (ColumnEdit.onMutation before.mutation (.add entry)).lookup column = _
      rw [Mutation.lookup_onMutation, inductionHypothesis, edits, ColumnEdit.last?_append,
        ColumnEdit.last?_singleton]
      split <;> rfl
  | delete before deleted inductionHypothesis =>
      show (ColumnEdit.onMutation before.mutation (.delete deleted)).lookup column = _
      rw [Mutation.lookup_onMutation, inductionHypothesis, edits, ColumnEdit.last?_append,
        ColumnEdit.last?_singleton]
      split <;> rfl
  | merge earlier later ofEarlier ofLater =>
      rw [mutation, edits, Mutation.lookup_merge, ofEarlier, ofLater, ColumnEdit.last?_append,
        Option.map_or]

/-- A mutation has the effect of all operations one after the other. -/
theorem applyTo_mutation (history : MutationHistory) (row : Row) :
    history.mutation.applyTo row = history.edits.foldl ColumnEdit.onRow row := by
  induction history generalizing row with
  | ofParts additions deletions =>
      rw [mutation, Mutation.applyTo_ofParts, Mutation.change_eq_foldl, edits]
  | add before entry inductionHypothesis =>
      simp [mutation, edits, Mutation.applyTo_add, inductionHypothesis, ColumnEdit.onRow]
  | delete before column inductionHypothesis =>
      simp [mutation, edits, Mutation.applyTo_delete, inductionHypothesis, ColumnEdit.onRow]
  | merge earlier later ofEarlier ofLater =>
      rw [mutation, Mutation.applyTo_merge, ofEarlier, ofLater, edits, List.foldl_append]

end MutationHistory

/-- Mutations of any histories compose: additions and deletions never share a column, each column
shows its last operation, a merged mutation changes every table as its parts one after the other,
raw halves may be consolidated first, and the two halves may be applied in either order. -/
theorem mutations_compose (history later : MutationHistory) :
    history.mutation.Separate ∧
    (∀ column, history.mutation.lookup column =
      (ColumnEdit.last? column history.edits).map ColumnEdit.value?) ∧
    (∀ row, history.mutation.applyTo row = history.edits.foldl ColumnEdit.onRow row) ∧
    (∀ (table : Table) (key : Bytes),
      Table.changeBy table key (history.mutation.merge later.mutation) =
        Table.changeBy (Table.changeBy table key history.mutation) key later.mutation) ∧
    (∀ (table : Table) (key : Bytes) (additions : List Entry) (deletions : List Bytes),
      Table.changeBy table key (.ofParts additions deletions) =
        Table.change table key additions deletions) ∧
    ∀ row, Row.changeAdded row history.mutation.addedEntries history.mutation.deletedColumns =
      Row.change row history.mutation.addedEntries history.mutation.deletedColumns := by
  refine ⟨history.separate_mutation, history.lookup_mutation, history.applyTo_mutation, ?_, ?_, ?_⟩
  · exact fun table key => Table.changeBy_merge table key history.mutation later.mutation
  · exact Table.changeBy_ofParts
  · exact history.separate_mutation.changeAdded_eq_change

end GraphStore
