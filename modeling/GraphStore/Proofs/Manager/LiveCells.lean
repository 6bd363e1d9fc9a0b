import GraphStore.Proofs.MutationHistory
import GraphStore.Proofs.Transaction.Commit
import GraphStore.Proofs.Transaction.SingleRow

/-!
Contract: the cells that acknowledged changes of rows leave.

Owns the changes of a run that were acknowledged (`RowChange.acknowledged`) and what a cell holds
behind changes (`Tables.live?`): what the last operation on it has left there. On a backend that
writes a row wholly or not at all, the tables behind a run hold what the acknowledged changes leave,
whatever has failed in between (`TableBackend.tables_of_acknowledged`).
-/

namespace GraphStore

/-! ### Changes as operations on cells -/

namespace ColumnEdit

theorem find?_onRow (row : Row) (edit : ColumnEdit) (column : Bytes) :
    (edit.onRow row).find? column =
      if edit.column = column then edit.value? else row.find? column := by
  cases edit with
  | add entry => simp [onRow, ColumnEdit.column, value?, OrderedMap.find?_insert, eq_comm]
  | delete deleted => simp [onRow, ColumnEdit.column, value?, OrderedMap.find?_erase, eq_comm]

/-- What a cell holds behind operations, the last of which counts. -/
def leave? (before : Option Bytes) (column : Bytes) (edits : List ColumnEdit) : Option Bytes :=
  ((last? column edits).map value?).getD before

theorem find?_foldl_onRow (edits : List ColumnEdit) (row : Row) (column : Bytes) :
    (edits.foldl onRow row).find? column = leave? (row.find? column) column edits :=
  shown_foldl (fun before : Row => before.find? column) value?
    (fun before edit => find?_onRow before edit column) edits row

end ColumnEdit

namespace RowChange

/-- The operations of a change on the columns of its row, in their order. -/
def edits (change : RowChange) : List ColumnEdit :=
  Mutation.editsOf change.additions change.deletions

def acknowledged : List RowChange → List (Result Reply) → List RowChange
  | change :: changes, .ok _ :: replies => change :: acknowledged changes replies
  | _ :: changes, .error _ :: replies => acknowledged changes replies
  | _, _ => []

theorem foldl_onRow (changes : List RowChange) (row : Row) :
    changes.foldl onRow row = (changes.flatMap edits).foldl ColumnEdit.onRow row := by
  rw [List.foldl_flatMap]
  congr 1
  funext row change
  exact Mutation.change_eq_foldl row change.additions change.deletions

end RowChange

/-- What a cell holds behind changes of rows: what the last operation on it leaves, or what it held
before where there is none. -/
def Tables.live? (before : Tables) (changes : List RowChange) (store : String)
    (key column : Bytes) : Option Bytes :=
  ColumnEdit.leave? ((Tables.row before store key).find? column) column
    ((changes.filter (RowChange.touches store key)).flatMap RowChange.edits)

/-- A cell behind row changes is what the last edit of its column has left. -/
theorem Tables.cell?_applyAll (before : Tables) (changes : List RowChange) (store : String)
    (key column : Bytes) :
    Table.cell? (Tables.table (Log.applyAll changes before) store) key column =
      before.live? changes store key column := by
  show (Tables.row (Log.applyAll changes before) store key).find? column = _
  rw [Tables.row_applyAll, RowChange.foldl_onRow, ColumnEdit.find?_foldl_onRow, live?]

/-! ### Runs -/

namespace TableBackend

variable {σ : Type} {manager : Manager σ} (backend : TableBackend manager)
  (atomic : backend.RowsAtomic)
include atomic

/-- A change of a row is made if it is acknowledged, and is not made at all otherwise. -/
theorem perform_change {state after : σ} {change : RowChange} {reply : Result Reply}
    (isOpen : backend.isOpen state = true)
    (ran : change.call.perform manager state = (reply, after)) :
    backend.isOpen after = true ∧
      backend.tables after =
        Log.applyAll (RowChange.acknowledged [change] [reply]) (backend.tables state) := by
  have opened := backend.openStore_of_open isOpen change.store
  obtain ⟨outcome, left, front, mutated, -, shown, complete, -⟩ :=
    backend.mutates state change.store change.key change.additions change.deletions
  have stillOpen : backend.isOpen left = true := (TableView.isOpen_eq shown).trans isOpen
  rw [RowChange.call, StoreCall.perform, Action.bind_of_ok opened] at ran
  cases outcome with
  | error failure =>
      rw [Action.bind_of_error mutated] at ran
      obtain ⟨rfl, rfl⟩ := Prod.mk.inj ran
      exact ⟨stillOpen, atomic.mutate state change.store change.key change.additions
        change.deletions failure _ mutated⟩
  | ok done =>
      rw [Action.bind_of_ok mutated, Action.pure_apply] at ran
      obtain ⟨rfl, rfl⟩ := Prod.mk.inj ran
      have tables := TableView.tables_eq shown
      rw [complete rfl] at tables
      exact ⟨stillOpen, tables⟩

/-- Behind a run of changes the tables hold the acknowledged ones, whatever has failed. -/
theorem tables_of_acknowledged {changes : List RowChange} {state after : σ}
    {replies : List (Result Reply)} (isOpen : backend.isOpen state = true)
    (ran : StoreCall.performAll manager (changes.map RowChange.call) state = (replies, after)) :
    backend.isOpen after = true ∧
      backend.tables after =
        Log.applyAll (RowChange.acknowledged changes replies) (backend.tables state) := by
  induction changes generalizing state replies with
  | nil =>
      obtain ⟨rfl, rfl⟩ := Prod.mk.inj ran
      exact ⟨isOpen, rfl⟩
  | cons change changes inductionHypothesis =>
      rcases first : change.call.perform manager state with ⟨reply, middle⟩
      rcases rest : StoreCall.performAll manager (changes.map RowChange.call) middle with
        ⟨others, final⟩
      rw [List.map_cons, StoreCall.performAll, first] at ran
      dsimp only at ran
      rw [rest] at ran
      obtain ⟨rfl, rfl⟩ := Prod.mk.inj ran
      obtain ⟨stillOpen, made⟩ := backend.perform_change atomic isOpen first
      obtain ⟨openAfter, tables⟩ := inductionHypothesis stillOpen rest
      refine ⟨openAfter, tables.trans ?_⟩
      rw [made, ← Log.applyAll_append]
      cases reply <;> rfl

end TableBackend

end GraphStore
