import GraphStore.Proofs.Ids.Watermark
import GraphStore.Proofs.Manager.Guarded

/-!
Contract: stores that watermarks can be kept in.

Owns what the granting of blocks relies on (`IdStore`): reads show one table, a conditional
write happens completely or not at all, and references to the store stay good. Every guarded manager
offers it, and so both backends, the one with the log whatever its file does.
-/

namespace GraphStore

/-- The failure says that the identifiers of a namespace are used up. -/
def StoreError.isExhaustion : StoreError → Bool
  | idsExhausted _ _ _ => true
  | _ => false

/-- What a conditional write can come to: its outcome, and the table behind it. -/
inductive SwapResult (before : Table) (key column : Bytes) (expected : Option Bytes)
    (new : Bytes) : Result Bool → Table → Prop where
  | written (found : Table.cell? before key column = expected) :
      SwapResult before key column expected new (.ok true)
        (Table.change before key [⟨column, new⟩] [])
  | lost (other : Table.cell? before key column ≠ expected) :
      SwapResult before key column expected new (.ok false) before
  | failed {failure : StoreError} (foreign : failure.isExhaustion = false) :
      SwapResult before key column expected new (.error failure) before

/-- A store of a manager in which single rows are read and conditionally written. -/
structure IdStore {σ : Type} (manager : Manager σ) (name : String) where
  table : σ → Table
  reference : σ → StoreRef
  opens : ∀ state, manager.openStore name state = (.ok (reference state), state) ∨
    ∃ failure, manager.openStore name state = (.error failure, state)
  reads : ∀ state key slice,
    manager.getSlice (reference state) key slice state =
        (.ok (Table.slice (table state) key slice), state) ∨
      ∃ failure, manager.getSlice (reference state) key slice state = (.error failure, state) ∧
        failure.isExhaustion = false
  swaps : ∀ state key column expected new, ∃ outcome after,
    manager.compareAndSwap (reference state) key column expected new state = (outcome, after) ∧
      reference after = reference state ∧
      SwapResult (table state) key column expected new outcome (table after)

/-! ### Guarded managers -/

/-- Every store of a guarded manager can keep watermarks, if no write of a row fails for want of
identifiers. -/
def GuardedManager.idStore {σ : Type} {manager : Manager σ} (guarded : GuardedManager manager)
    (foreign : ∀ {store key additions deletions state failure after},
      guarded.write store key additions deletions state = (.error failure, after) →
        failure.isExhaustion = false) (name : String) : IdStore manager name where
  table state := Tables.table (guarded.stores state).current name
  reference state := (guarded.stores state).refer name
  opens state := by
    cases closed : guarded.closed state with
    | false => exact Or.inl (guarded.openStore_of_open closed name)
    | true => exact Or.inr ⟨_, (guarded.refuses closed).opens name⟩
  reads state key slice := by
    cases closed : guarded.closed state with
    | false => exact Or.inl (guarded.getSlice_of_open closed name key slice)
    | true => exact Or.inr ⟨_, (guarded.refuses closed).reads _ key slice, rfl⟩
  swaps state key column expected new := by
    cases closed : guarded.closed state with
    | true =>
        exact ⟨_, state, (guarded.refuses closed).swaps _ key column expected new, rfl, .failed rfl⟩
    | false =>
        have writes := guarded.writes ((guarded.stores state).refer name) key [⟨column, new⟩] []
        rcases written : guarded.write ((guarded.stores state).refer name) key [⟨column, new⟩] []
          state with ⟨outcome, after⟩
        have compared := guarded.compareAndSwap_of_open closed name key column expected new written
        by_cases found :
            Table.cell? (Tables.table (guarded.stores state).current name) key column = expected
        · rw [if_pos found] at compared
          cases outcome with
          | ok done =>
              have stores := writes.made written
              rw [Generations.change_refer] at stores
              refine ⟨_, after, compared, ?_, ?_⟩
              · rw [stores]
                rfl
              · rw [stores]
                show SwapResult _ _ _ _ _ _ (Tables.table (Tables.change
                  (guarded.stores state).current name key [⟨column, new⟩] []) name)
                rw [Tables.table_change, if_pos rfl]
                exact .written found
          | error failure =>
              have stores := writes.unmade written
              refine ⟨_, after, compared, ?_, ?_⟩
              · rw [stores]
              · rw [stores]
                exact .failed (foreign written)
        · rw [if_neg found] at compared
          exact ⟨_, _, compared, rfl, .lost found⟩

/-! ### Both backends -/

def Memory.idStore (name : String) : IdStore manager name :=
  guarded.idStore (fun written => nomatch congrArg Prod.fst written) name

namespace Embedded

/-- A row that is not written has been refused by the log. -/
theorem append_of_writeRow_error {store : StoreRef} {key : Bytes} {additions : List Entry}
    {deletions : List Bytes} {embedded after : Embedded} {failure : StoreError}
    (failed : writeRow store key additions deletions embedded = (.error failure, after)) :
    ∃ writer, LogWriter.append ⟨store.name, key, additions, deletions⟩ embedded.writer =
      (.error failure, writer) := by
  rcases appended : LogWriter.append ⟨store.name, key, additions, deletions⟩ embedded.writer with
    ⟨other | done, writer⟩
  · rw [writeRow, Action.bind_of_error (onWriter_of_error appended)] at failed
    obtain ⟨same, -⟩ := Prod.mk.inj failed
    exact ⟨writer, by rw [same]⟩
  · rw [writeRow, Action.bind_of_ok (onWriter_of_ok appended)] at failed
    exact nomatch congrArg Prod.fst failed

/-- Every store of the backend with the log can keep watermarks, whatever its file does. -/
def idStore (name : String) : IdStore manager name :=
  guarded.idStore (fun written => by
    obtain ⟨writer, refused⟩ := append_of_writeRow_error written
    rcases LogWriter.append_error refused with rfl | ⟨cause, rfl⟩ | rfl <;> rfl) name

end Embedded

end GraphStore
