import GraphStore.Proofs.Transaction.Flush

/-!
Contract: commits that write many rows.

Owns the commit of any row changes (`Transaction.commit_changes`): all of them are made when it
succeeds, it does succeed on an open backend that takes every write, and whether it does or not, the
stores that no change is for are left alone.
-/

namespace GraphStore

/-! ### Stores that are staged for -/

namespace Transaction

variable {transaction after : Transaction} {store : String}

/-- Nothing is staged for a store but by a row change of it. -/
theorem named_of_mutate {change : RowChange}
    (mutated : transaction.mutate change.store change.key change.additions change.deletions =
      .ok after) (named : after.pending.contains store = true) :
    change.store = store ∨ transaction.pending.contains store = true := by
  rcases pending_of_mutate mutated with same | same
  · exact .inr (same ▸ named)
  · rw [same, stageRow, OrderedMap.contains, OrderedMap.find?_insert] at named
    by_cases own : store = change.store
    · exact .inl own.symm
    · rw [if_neg own] at named
      exact .inr named

theorem named_of_stageAll {changes : List RowChange}
    (staged : transaction.stageAll changes = .ok after)
    (named : after.pending.contains store = true) :
    (∃ change ∈ changes, change.store = store) ∨ transaction.pending.contains store = true := by
  induction changes generalizing transaction with
  | nil =>
      obtain rfl := Except.ok.inj staged
      exact .inr named
  | cons change changes inductionHypothesis =>
      unfold stageAll at staged
      cases mutated : transaction.mutate change.store change.key change.additions
        change.deletions with
      | error failure =>
          rw [mutated] at staged
          cases staged
      | ok between =>
          rw [mutated] at staged
          rcases inductionHypothesis staged with ⟨other, member, own⟩ | earlier
          · exact .inl ⟨other, List.mem_cons_of_mem _ member, own⟩
          · rcases named_of_mutate mutated earlier with own | before
            · exact .inl ⟨change, List.mem_cons_self, own⟩
            · exact .inr before

end Transaction

theorem StoreMutations.named_of_mem {pending : StoreMutations} {change : RowChange}
    (member : change ∈ rowChanges pending) : pending.contains change.store = true := by
  obtain ⟨store, listed, own⟩ := List.mem_flatMap.1 member
  obtain ⟨row, -, rfl⟩ := List.mem_map.1 own
  exact OrderedMap.mem_keys.1 (List.mem_map_of_mem listed)

/-- A table is left alone by changes of other stores. -/
theorem Tables.table_of_others {changes : List RowChange} {store : String}
    (others : ∀ change ∈ changes, change.store ≠ store) (tables : Tables) :
    Tables.table (Log.applyAll changes tables) store = Tables.table tables store := by
  have none : changes.filter (fun change => change.store = store) = [] := by
    apply List.filter_eq_nil_iff.2
    intro change member
    simpa using others change member
  rw [Embedded.table_applyAll, none]
  rfl

/-! ### Commits -/

namespace Transaction

open CachedStores

variable {σ : Type} {manager : Manager σ}

theorem refers_flush (backend : TableBackend manager) (stripe : Bytes → Stripe) (size : Nat)
    (stores : List (String × OrderedMap Bytes Mutation)) (world : CachePool × σ)
    (refers : world.1.Refers (backend.refer world.2)) :
    (flush (pooled manager stripe) size stores world).2.1.Refers (backend.refer world.2) := by
  induction stores generalizing world with
  | nil => exact refers
  | cons store stores inductionHypothesis =>
      obtain ⟨⟨outcome, middle, front, ran, -, shown, -⟩, stillRefers⟩ :=
        writes_flushStore backend stripe size store.1 store.2 refers
      rw [ran] at stillRefers
      unfold flush
      cases outcome with
      | error failure =>
          rw [Action.bind_of_error ran]
          exact stillRefers
      | ok done =>
          have refer : backend.refer middle.2 = backend.refer world.2 := TableView.refer_eq shown
          rw [Action.bind_of_ok ran, ← refer]
          apply inductionHypothesis middle
          rwa [refer]

structure ChangesCommit (backend : TableBackend manager) (changes : List RowChange)
    (before : CachePool × σ) (outcome : Result Unit) (after : CachePool × σ) : Prop where
  refers : after.1.Refers (backend.refer after.2)
  refer : backend.refer after.2 = backend.refer before.2
  isOpen : backend.isOpen after.2 = backend.isOpen before.2
  made : outcome = .ok () → ∀ store key, Tables.row (backend.tables after.2) store key =
    Tables.row (Log.applyAll changes (backend.tables before.2)) store key
  spared : ∀ store, (∀ change ∈ changes, change.store ≠ store) →
    Tables.table (backend.tables after.2) store = Tables.table (backend.tables before.2) store
  succeeds : backend.reliable → backend.isOpen before.2 = true → outcome = .ok ()

/-- Staging row changes succeeds, and their commit ends as `ChangesCommit` says. -/
theorem commit_changes (backend : TableBackend manager) (stripe : Bytes → Stripe)
    (bufferSize : Nat) (changes : List RowChange) {before : CachePool × σ}
    (refers : before.1.Refers (backend.refer before.2)) :
    ∃ staged outcome ended after, (start bufferSize).stageAll changes = .ok staged ∧
      staged.commit (pooled manager stripe) before = ((outcome, ended), after) ∧
      ChangesCommit backend changes before outcome after := by
  obtain ⟨staged, taken, stages⟩ := stageAll_start bufferSize changes
  obtain ⟨outcome, after, front, flushed, isFront, shown, complete, succeeds⟩ :=
    writes_flush backend stripe staged.bufferSize staged.pending.entries before refers
  have stillRefers :=
    refers_flush backend stripe staged.bufferSize staged.pending.entries before refers
  rw [flushed] at stillRefers
  have refer : backend.refer after.2 = backend.refer before.2 := TableView.refer_eq shown
  have tables : backend.tables after.2 = Log.applyAll front (backend.tables before.2) :=
    TableView.tables_eq shown
  refine ⟨staged, outcome, staged.finished outcome, after, taken, ?_, ?_⟩
  · rw [commit_of_running stages.running, flushed]
  constructor
  · rwa [refer]
  · exact refer
  · exact TableView.isOpen_eq shown
  · intro succeeded store key
    obtain rfl := complete succeeded
    rw [tables]
    exact (StoreMutations.row_rowChanges _ _ _ _).trans (stages.row_mutationOf _ _ _)
  · intro store others
    rw [tables]
    apply Tables.table_of_others
    intro change member own
    have named := StoreMutations.named_of_mem (isFront.subset member)
    rcases named_of_stageAll taken named with ⟨asked, listed, same⟩ | before
    · exact others asked listed (same.trans own)
    · exact nomatch before
  · intro reliable isOpen
    exact succeeds ⟨reliable, isOpen⟩

end Transaction

end GraphStore
