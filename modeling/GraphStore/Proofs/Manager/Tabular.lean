import GraphStore.Proofs.Manager.Refinement
import GraphStore.Proofs.Progress
import GraphStore.Proofs.Transaction.Staging

/-!
Contract: backends whose stores are tables.

Owns the laws that transactions and caches rely on (`TableBackend`): an open store shows its
table, a write leaves some front of its row changes in the tables, all of them when it
succeeds, and references stay good. Guarded managers obey them if their batches follow the changes
of rows store by store (`GuardedManager.FollowsStores`), and so do both backends, the one with the
log whatever its file does, also with another batch change or another claim about batches.
-/

namespace GraphStore

/-- What shows of the states of a backend whose stores are tables. -/
structure TableView (σ : Type) where
  tables : σ → Tables
  refer : σ → String → StoreRef
  isOpen : σ → Bool
  /-- An open backend takes every write. -/
  reliable : Prop

namespace TableView

variable {σ : Type}

/-- Row changes are made in the tables; references and closing stay as they are. -/
def progress (view : TableView σ) : Progress σ RowChange where
  Shown := Tables × (String → StoreRef) × Bool
  shown state := (view.tables state, view.refer state, view.isOpen state)
  advance changes shown := (Log.applyAll changes shown.1, shown.2)
  advance_nil _ := rfl
  advance_append front back shown := by rw [Log.applyAll_append]
  sure shown := view.reliable ∧ shown.2.2 = true
  sure_advance _ _ sure := sure

/-- The operation writes a front of the row changes, and all of them when it succeeds. -/
abbrev Writes (view : TableView σ) := view.progress.Follows

/-- A front of the row changes has been written, and nothing else has changed. -/
abbrev Wrote (view : TableView σ) := view.progress.Reaches

theorem unsure_of_closed {view : TableView σ} {state : σ} (closed : view.isOpen state = false) :
    ¬ view.progress.sure (view.progress.shown state) :=
  fun sure => absurd (closed.symm.trans sure.2) Bool.false_ne_true

section Shown

variable {view : TableView σ} {before after : σ} {changes : List RowChange}
  (shown : view.progress.shown after = view.progress.advance changes (view.progress.shown before))
include shown

theorem tables_eq : view.tables after = Log.applyAll changes (view.tables before) :=
  congrArg Prod.fst shown

theorem refer_eq : view.refer after = view.refer before :=
  congrArg (fun shown => shown.2.1) shown

theorem isOpen_eq : view.isOpen after = view.isOpen before :=
  congrArg (fun shown => shown.2.2) shown

end Shown

end TableView

/-- Row changes are made in the current tables; earlier generations and closing stay as they are. -/
def Generations.progress {σ : Type} (stores : σ → Generations) (isOpen : σ → Bool)
    (reliable : Prop) : Progress σ RowChange where
  Shown := Generations × Bool
  shown state := (stores state, isOpen state)
  advance changes shown := (shown.1.applyAll changes, shown.2)
  advance_nil _ := rfl
  advance_append front back shown := by rw [Generations.applyAll_append]
  sure shown := reliable ∧ shown.2 = true
  sure_advance _ _ sure := sure

namespace TableView

variable {σ : Type} {stores : σ → Generations} {isOpen : σ → Bool} {reliable : Prop}

def ofStores (stores : σ → Generations) (isOpen : σ → Bool) (reliable : Prop) : TableView σ where
  tables state := (stores state).current
  refer state := (stores state).refer
  isOpen := isOpen
  reliable := reliable

theorem writes_of_stores {action : Action σ Unit} {before : σ} {plan : List RowChange}
    (follows : (Generations.progress stores isOpen reliable).Follows action before plan) :
    (ofStores stores isOpen reliable).Writes action before plan :=
  follows.through (fun seen => (seen.1.current, seen.1.refer, seen.2)) (fun _ => rfl)
    (fun _ _ => rfl) fun _ sure => sure

end TableView

/-- A manager whose stores are tables. -/
structure TableBackend {σ : Type} (manager : Manager σ) extends TableView σ where
  opens : ∀ state name, manager.openStore name state = (.ok (refer state name), state) ∨
    isOpen state = false ∧ ∃ failure, manager.openStore name state = (.error failure, state)
  reads : ∀ state name key slice, isOpen state = true →
    manager.getSlice (refer state name) key slice state =
      (.ok (Table.slice (Tables.table (tables state) name) key slice), state)
  mutates : ∀ state name key additions deletions,
    toTableView.Writes (manager.mutate (refer state name) key additions deletions) state
      [⟨name, key, additions, deletions⟩]
  swaps : ∀ state name key column expected new,
    toTableView.Wrote state [⟨name, key, [⟨column, new⟩], []⟩]
      (manager.compareAndSwap (refer state name) key column expected new state).2
  mutatesMany : ∀ state mutations,
    toTableView.Writes (manager.mutateMany mutations) state (StoreMutations.rowChanges mutations)

/-! ### Rows one by one -/

namespace Manager

variable {σ : Type}

/-- Writes rows of one store one by one, up to the first failure, which is renamed. -/
def writeEach (manager : Manager σ) (rename : StoreError → StoreError) (store : StoreRef) :
    List (Bytes × Mutation) → Action σ Unit
  | [] => return ()
  | (key, mutation) :: rows => do
    Action.mapError rename
      (manager.mutate store key mutation.addedEntries mutation.deletedColumns)
    writeEach manager rename store rows

theorem writeRows_eq_writeEach (manager : Manager σ) (store : StoreRef)
    (rows : List (Bytes × Mutation)) :
    manager.writeRows store rows = manager.writeEach (.persistence store.name) store rows := by
  induction rows with
  | nil => rfl
  | cons row rows inductionHypothesis => rw [writeRows, writeEach, inductionHypothesis]

/-- A flush row by row is the writing of each row under the name of its store. -/
theorem flushRows_eq_writeEach (manager : Manager σ) (name : String) (store : StoreRef)
    (rows : List (Bytes × Mutation)) :
    Transaction.flushRows manager name store rows =
      manager.writeEach (.persistence name) store rows := by
  induction rows with
  | nil => rfl
  | cons row rows inductionHypothesis =>
      rw [Transaction.flushRows, writeEach, inductionHypothesis]

/-- The manager with the given claim about batches, and with a batch change that goes row by row
in place of its own one if asked. -/
def configured (manager : Manager σ) (batching rowByRow : Bool) : Manager σ :=
  { manager with
    features := { manager.features with batchMutation := batching }
    mutateMany := if rowByRow then manager.mutateEach else manager.mutateMany }

end Manager

namespace TableBackend

variable {σ : Type} {manager : Manager σ}

theorem openStore_of_open (backend : TableBackend manager) {state : σ}
    (isOpen : backend.isOpen state = true) (name : String) :
    manager.openStore name state = (.ok (backend.refer state name), state) := by
  rcases backend.opens state name with opened | ⟨closed, -⟩
  · exact opened
  · rw [isOpen] at closed
    exact nomatch closed

/-- Rows that are written one by one follow their row changes. -/
theorem writes_writeEach (backend : TableBackend manager) (rename : StoreError → StoreError)
    (name : String) (rows : List (Bytes × Mutation)) (state : σ) :
    backend.Writes (manager.writeEach rename (backend.refer state name) rows) state
      (StoreCall.batchRows name rows) := by
  induction rows generalizing state with
  | nil => exact .nothing state
  | cons row rows inductionHypothesis =>
      have first := (backend.mutates state name row.1 row.2.addedEntries
        row.2.deletedColumns).mapError rename
      refine first.andThen fun after _ shown => ?_
      rw [← TableView.refer_eq shown]
      exact inductionHypothesis after

theorem writes_writeStores (backend : TableBackend manager)
    (stores : List (String × OrderedMap Bytes Mutation)) (state : σ) :
    backend.Writes (manager.writeStores stores) state
      (stores.flatMap fun store => StoreCall.batchRows store.1 store.2.entries) := by
  induction stores generalizing state with
  | nil => exact .nothing state
  | cons store stores inductionHypothesis =>
      rcases backend.opens state store.1 with opened | ⟨closed, failure, failed⟩
      · refine .of_eq (Action.bind_of_ok opened) ?_
        rw [Manager.writeRows_eq_writeEach]
        exact (backend.writes_writeEach _ store.1 store.2.entries state).andThen
          fun after _ _ => inductionHypothesis after
      · exact .failed (Action.bind_of_error failed) (TableView.unsure_of_closed closed)

/-- The laws do not depend on what the backend claims about batches, nor on whether a batch goes
through its own batch change or row by row. -/
def configured (backend : TableBackend manager) (batching rowByRow : Bool) :
    TableBackend (manager.configured batching rowByRow) where
  toTableView := backend.toTableView
  opens := backend.opens
  reads := backend.reads
  mutates := backend.mutates
  swaps := backend.swaps
  mutatesMany state mutations := by
    cases rowByRow with
    | false => exact backend.mutatesMany state mutations
    | true => exact backend.writes_writeStores mutations.entries state

end TableBackend

/-! ### Guarded managers -/

namespace GuardedManager

variable {σ : Type} {manager : Manager σ} (guarded : GuardedManager manager)

def tableView : TableView σ :=
  .ofStores guarded.stores (fun state => !guarded.closed state) guarded.reliable

/-- Row changes, as they change the tables of all generations. -/
abbrev progress : Progress σ RowChange :=
  Generations.progress guarded.stores (fun state => !guarded.closed state) guarded.reliable

theorem isOpen_of_closed {state : σ} (closed : guarded.closed state = true) :
    guarded.tableView.isOpen state = false := by
  show (!guarded.closed state) = false
  rw [closed]
  rfl

theorem follows_of_closed {state : σ} (closed : guarded.closed state = true)
    {action : Action σ Unit} {failure : StoreError}
    (failed : action state = (.error failure, state)) (plan : List RowChange) :
    guarded.progress.Follows action state plan :=
  .failed failed fun sure =>
    absurd ((guarded.isOpen_of_closed closed).symm.trans sure.2) Bool.false_ne_true

/-- A row is written if the write succeeds, and not written if it fails. -/
theorem follows_write (change : RowChange) (state : σ) :
    guarded.progress.Follows (guarded.write ((guarded.stores state).refer change.store) change.key
      change.additions change.deletions) state [change] := by
  let handle := (guarded.stores state).refer change.store
  have writes := guarded.writes handle change.key change.additions change.deletions
  have closed := guarded.writesOpen handle change.key change.additions change.deletions state
  have takes := (guarded.takes · handle change.key change.additions change.deletions state)
  rcases written : guarded.write handle change.key change.additions change.deletions state with
    ⟨failure | done, after⟩
  · rw [written] at closed takes
    exact ⟨_, after, [], written, List.nil_prefix,
      Prod.ext (writes.unmade written) (congrArg not closed), nofun, fun sure => takes sure.1⟩
  · rw [written] at closed
    have stores := writes.made written
    rw [Generations.change_refer] at stores
    exact ⟨_, after, [change], written, List.prefix_refl _, Prod.ext stores (congrArg not closed),
      fun _ => rfl, fun _ => rfl⟩

theorem follows_mutate (change : RowChange) (state : σ) :
    guarded.progress.Follows (manager.mutate ((guarded.stores state).refer change.store) change.key
      change.additions change.deletions) state [change] := by
  cases closed : guarded.closed state with
  | false =>
      exact .of_eq (guarded.mutate_of_open closed _ _ _ _) (guarded.follows_write change state)
  | true => exact guarded.follows_of_closed closed ((guarded.refuses closed).mutates _ _ _ _) _

theorem wrote_compareAndSwap (state : σ) (name : String) (key column : Bytes)
    (expected : Option Bytes) (new : Bytes) :
    guarded.tableView.Wrote state [⟨name, key, [⟨column, new⟩], []⟩]
      (manager.compareAndSwap ((guarded.stores state).refer name) key column expected new
        state).2 := by
  cases closed : guarded.closed state with
  | true =>
      rw [(guarded.refuses closed).swaps]
      exact .refl state _
  | false =>
      obtain ⟨outcome, after, front, ran, isFront, shown, -, -⟩ :=
        TableView.writes_of_stores (guarded.follows_write ⟨name, key, [⟨column, new⟩], []⟩ state)
      rw [guarded.compareAndSwap_of_open closed name key column expected new ran]
      split
      · exact ⟨front, isFront, shown⟩
      · exact .refl state _

/-- While the manager is open, what a batch does to one store follows the changes of its rows. -/
def FollowsStores : Prop :=
  ∀ name rows state, guarded.closed state = false →
    guarded.progress.Follows (guarded.writeStore (name, rows)) state
      (StoreCall.batchRows name rows.entries)

variable {guarded}

/-- A batch follows its row changes from the first on. -/
theorem FollowsStores.mutateMany (followsStores : guarded.FollowsStores)
    (mutations : StoreMutations) (state : σ) :
    guarded.progress.Follows (manager.mutateMany mutations) state
      (StoreMutations.rowChanges mutations) := by
  rw [guarded.batches, StoreMutations.rowChanges]
  generalize mutations.entries = batch
  induction batch generalizing state with
  | nil => exact .nothing state
  | cons store batch inductionHypothesis =>
      rw [List.forM_cons, List.flatMap_cons]
      refine Progress.Follows.andThen ?_ fun after _ _ => inductionHypothesis after
      cases closed : guarded.closed state with
      | false => exact followsStores store.1 store.2 state closed
      | true => exact guarded.follows_of_closed closed (guarded.refusesStore closed _ _) _

def tableBackend (followsStores : guarded.FollowsStores) : TableBackend manager where
  toTableView := guarded.tableView
  opens state name := by
    cases closed : guarded.closed state with
    | false => exact Or.inl (guarded.openStore_of_open closed name)
    | true => exact Or.inr ⟨guarded.isOpen_of_closed closed, _, (guarded.refuses closed).opens name⟩
  reads _ name key slice isOpen :=
    guarded.getSlice_of_open (Bool.not_eq_true' _ ▸ isOpen) name key slice
  mutates state name key additions deletions :=
    TableView.writes_of_stores (guarded.follows_mutate ⟨name, key, additions, deletions⟩ state)
  swaps := guarded.wrote_compareAndSwap
  mutatesMany state mutations :=
    TableView.writes_of_stores (followsStores.mutateMany mutations state)

end GuardedManager

/-! ### Both backends -/

namespace Memory

theorem followsStores : guarded.FollowsStores := fun name rows _ closed =>
  ⟨_, _, _, writeStore_of_open (name, rows) closed, List.prefix_refl _, rfl, fun _ => rfl,
    fun _ => rfl⟩

/-- The stores of the backend in memory are tables. -/
def tableBackend : TableBackend manager := guarded.tableBackend followsStores

end Memory

namespace Embedded

theorem follows_writeRows (name : String) (rows : List (Bytes × Mutation)) (embedded : Embedded) :
    guarded.progress.Follows (writeRows (embedded.stores.refer name) rows) embedded
      (StoreCall.batchRows name rows) := by
  induction rows generalizing embedded with
  | nil => exact .nothing embedded
  | cons row rows inductionHypothesis =>
      have first := guarded.follows_write
        ⟨name, row.1, row.2.addedEntries, row.2.deletedColumns⟩ embedded
      refine first.andThen fun after _ shown => ?_
      have refer : after.stores.refer = embedded.stores.refer :=
        congrArg (fun shown => shown.1.refer) shown
      rw [← refer]
      exact inductionHypothesis after

theorem followsStores : guarded.FollowsStores := fun name rows embedded closed =>
  .mapError (.of_eq (Action.bind_of_ok (guarded.openStore_of_open closed name))
    (follows_writeRows name rows.entries embedded)) _

/-- The stores of the backend with the log are tables. -/
def tableBackend : TableBackend manager := guarded.tableBackend followsStores

end Embedded

end GraphStore
