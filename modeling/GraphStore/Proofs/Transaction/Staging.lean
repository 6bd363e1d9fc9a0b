import GraphStore.Proofs.Mutation
import GraphStore.Transaction

/-!
Contract: what a transaction holds back is what it was asked to write.

Owns the staging of many row changes (`Transaction.stageAll`), the row changes that a set of
pending mutations stands for (`StoreMutations.rowChanges`), and the law between the two: applied
to any tables they leave the same rows. Staging on a running transaction never fails.
-/

namespace GraphStore

/-! ### Pending mutations -/

namespace StoreMutations

/-- The row changes that pending mutations stand for, stores in name order and rows in key
order. -/
def rowChanges (pending : StoreMutations) : List RowChange :=
  pending.entries.flatMap fun store => StoreCall.batchRows store.1 store.2.entries

/-- What is pending for a row; nothing is pending for an unnamed one. -/
def mutationOf (pending : StoreMutations) (store : String) (key : Bytes) : Mutation :=
  ((pending.find? store).bind fun rows => rows.find? key).getD .empty

theorem filter_batchRows (store name : String) (rows : OrderedMap Bytes Mutation) (key : Bytes) :
    (StoreCall.batchRows store rows.entries).filter (RowChange.touches name key) =
      if store = name then
        ((rows.find? key).map fun mutation =>
          [⟨store, key, mutation.addedEntries, mutation.deletedColumns⟩]).getD []
      else [] := by
  rw [StoreCall.batchRows, List.map_eq_flatMap]
  split
  · rename_i same
    have others : ∀ row ∈ rows.entries, row.1 ≠ key →
        [(⟨store, row.1, row.2.addedEntries, row.2.deletedColumns⟩ : RowChange)].filter
          (RowChange.touches name key) = [] := by
      intro row _ different
      simp [RowChange.touches, different]
    rw [OrderedMap.filter_flatMap rows.ascending others]
    show ((rows.find? key).map _).getD [] = _
    cases rows.find? key with
    | none => rfl
    | some mutation => simp [RowChange.touches, same]
  · rename_i different
    refine List.filter_eq_nil_iff.2 fun change member => ?_
    obtain ⟨row, _, inRow⟩ := List.mem_flatMap.1 member
    rw [List.mem_singleton.1 inRow]
    simp [RowChange.touches, different]

/-- Pending mutations reach each row with the mutation that is pending for it. -/
theorem row_rowChanges (pending : StoreMutations) (tables : Tables) (store : String)
    (key : Bytes) :
    Tables.row (Log.applyAll (rowChanges pending) tables) store key =
      (mutationOf pending store key).applyTo (Tables.row tables store key) := by
  have others : ∀ rows ∈ pending.entries, rows.1 ≠ store →
      (StoreCall.batchRows rows.1 rows.2.entries).filter (RowChange.touches store key) = [] := by
    intro rows _ different
    rw [filter_batchRows, if_neg different]
  rw [Tables.row_applyAll, rowChanges, OrderedMap.filter_flatMap pending.ascending others,
    mutationOf, OrderedMap.find?]
  cases pending.entries.lookup store with
  | none => rfl
  | some rows =>
      dsimp only [Option.map_some, Option.getD_some, Option.bind_some]
      rw [filter_batchRows, if_pos rfl]
      cases rows.find? key <;> rfl

theorem mutationOf_stageRow (pending : StoreMutations) (staged : String) (row : Bytes)
    (later : Mutation) (store : String) (key : Bytes) :
    mutationOf (Transaction.stageRow pending staged row later) store key =
      if store = staged ∧ key = row then (mutationOf pending staged row).merge later
      else mutationOf pending store key := by
  rw [mutationOf, Transaction.stageRow, OrderedMap.find?_insert]
  by_cases ofStore : store = staged
  · subst ofStore
    rw [if_pos rfl, Option.bind_some, OrderedMap.find?_insert, mutationOf, mutationOf]
    by_cases ofRow : key = row
    · subst ofRow
      rw [if_pos rfl, if_pos ⟨rfl, rfl⟩, OrderedMap.findD, OrderedMap.findD]
      cases pending.find? store <;> rfl
    · rw [if_neg ofRow, if_neg fun both => ofRow both.2, OrderedMap.findD]
      cases pending.find? store <;> rfl
  · rw [if_neg ofStore, if_neg fun both => ofStore both.1, mutationOf]

end StoreMutations

/-! ### Staging -/

namespace Transaction

/-- Stages row changes one after the other. -/
def stageAll (transaction : Transaction) : List RowChange → Result Transaction
  | [] => .ok transaction
  | call :: calls => do
    let staged ← transaction.mutate call.store call.key call.additions call.deletions
    stageAll staged calls

/-- The later transaction has the calls staged on top of the earlier one. -/
structure Stages (before : Transaction) (calls : List RowChange) (after : Transaction) :
    Prop where
  running : after.state = .running
  bufferSize : after.bufferSize = before.bufferSize
  rows : ∀ store key row,
    (StoreMutations.mutationOf after.pending store key).applyTo row =
      (calls.filter (RowChange.touches store key)).foldl RowChange.onRow
        ((StoreMutations.mutationOf before.pending store key).applyTo row)

variable {transaction : Transaction}

theorem ensureOpen_of_running (running : transaction.state = .running) :
    transaction.ensureOpen = .ok () := by
  rw [ensureOpen, isOpen, running]
  rfl

/-- A running transaction stages a mutation unless it is empty. -/
theorem mutate_eq_of_running (running : transaction.state = .running) (store : String)
    (key : Bytes) (additions : List Entry) (deletions : List Bytes) :
    transaction.mutate store key additions deletions =
      if (additions.isEmpty && deletions.isEmpty) = true then .ok transaction
      else .ok { transaction with
        pending := stageRow transaction.pending store key (.ofParts additions deletions) } := by
  rw [mutate, ensureOpen_of_running running]
  rfl

theorem pending_of_mutate {after : Transaction} {store : String} {key : Bytes}
    {additions : List Entry} {deletions : List Bytes}
    (mutated : transaction.mutate store key additions deletions = .ok after) :
    after.pending = transaction.pending ∨
      after.pending = stageRow transaction.pending store key (.ofParts additions deletions) := by
  unfold mutate at mutated
  cases opened : transaction.ensureOpen with
  | error failure =>
      rw [opened] at mutated
      exact nomatch mutated
  | ok running =>
      rw [opened] at mutated
      change (if _ then _ else _) = _ at mutated
      split at mutated
      · exact .inl (congrArg pending (Except.ok.inj mutated).symm)
      · exact .inr (congrArg pending (Except.ok.inj mutated).symm)

/-- A running transaction takes every call. -/
theorem mutate_of_running (running : transaction.state = .running) (call : RowChange) :
    ∃ after, transaction.mutate call.store call.key call.additions call.deletions = .ok after ∧
      transaction.Stages [call] after := by
  obtain ⟨name, row, additions, deletions⟩ := call
  have mutates := mutate_eq_of_running running name row additions deletions
  by_cases nothing : (additions.isEmpty && deletions.isEmpty) = true
  · refine ⟨transaction, mutates.trans (if_pos nothing), running, rfl, fun store key before => ?_⟩
    obtain ⟨noAdditions, noDeletions⟩ := (Bool.and_eq_true _ _).mp nothing
    cases List.isEmpty_iff.1 noAdditions
    cases List.isEmpty_iff.1 noDeletions
    rw [List.filter_cons]
    split <;> rfl
  · refine ⟨{ transaction with
      pending := stageRow transaction.pending name row (.ofParts additions deletions) },
      mutates.trans (if_neg nothing), running, rfl, fun store key before => ?_⟩
    rw [StoreMutations.mutationOf_stageRow, List.filter_cons]
    by_cases touched : store = name ∧ key = row
    · obtain ⟨rfl, rfl⟩ := touched
      have touches : RowChange.touches store key ⟨store, key, additions, deletions⟩ = true :=
        RowChange.touches_iff.2 ⟨rfl, rfl⟩
      rw [if_pos ⟨rfl, rfl⟩, Mutation.applyTo_merge, Mutation.applyTo_ofParts, if_pos touches]
      rfl
    · have untouched : ¬ RowChange.touches store key ⟨name, row, additions, deletions⟩ = true :=
        fun touches => touched
          ⟨(RowChange.touches_iff.1 touches).1.symm, (RowChange.touches_iff.1 touches).2.symm⟩
      rw [if_neg touched, if_neg untouched]
      rfl

theorem stageAll_of_running (running : transaction.state = .running) (calls : List RowChange) :
    ∃ after, transaction.stageAll calls = .ok after ∧ transaction.Stages calls after := by
  induction calls generalizing transaction with
  | nil => exact ⟨transaction, rfl, running, rfl, fun _ _ _ => rfl⟩
  | cons call calls inductionHypothesis =>
      obtain ⟨staged, mutated, first⟩ := mutate_of_running running call
      obtain ⟨after, others, rest⟩ := inductionHypothesis first.running
      refine ⟨after, ?_, rest.running, rest.bufferSize.trans first.bufferSize,
        fun store key row => ?_⟩
      · rw [stageAll, mutated]
        exact others
      · rw [rest.rows, first.rows, ← List.foldl_append, ← List.filter_append]
        rfl

/-- A new transaction takes every sequence of calls; what it then holds back reaches every row
with the calls of that row, in their order. -/
theorem stageAll_start (bufferSize : Nat) (calls : List RowChange) :
    ∃ transaction, (start bufferSize).stageAll calls = .ok transaction ∧
      (start bufferSize).Stages calls transaction :=
  stageAll_of_running rfl calls

namespace Stages

variable {bufferSize : Nat} {calls : List RowChange}

/-- What is staged for a row does to it what the calls have said. -/
theorem row_mutationOf (stages : (start bufferSize).Stages calls transaction) (tables : Tables)
    (store : String) (key : Bytes) :
    (StoreMutations.mutationOf transaction.pending store key).applyTo
        (Tables.row tables store key) =
      Tables.row (Log.applyAll calls tables) store key := by
  rw [stages.rows, Tables.row_applyAll]
  rfl

/-- What a transaction holds back, written to tables, leaves what the calls would have left. -/
theorem agree (stages : (start bufferSize).Stages calls transaction) {tables : Tables}
    (tidy : tables.Tidy) :
    Tables.Agree (Log.applyAll (StoreMutations.rowChanges transaction.pending) tables)
      (Log.applyAll calls tables) := by
  refine .of_rows (tidy.applyAll _) (tidy.applyAll _) fun store key => ?_
  rw [StoreMutations.row_rowChanges, stages.row_mutationOf]

end Stages

end Transaction

end GraphStore
