import GraphStore.Proofs.Cache.Steps
import GraphStore.Proofs.Transaction.Flush

/-!
Contract: a transaction reads what it would have written.

Owns the overlay of staged changes on committed entries (`overlay_slice`), and the read of a
running transaction: it answers with the slice that the store shows once the transaction is
committed, and leaves the backend and the staged changes as they are.
-/

namespace GraphStore

/-! ### Slices of rows -/

namespace Slice

/-- The bounds of the slice are not inverted; every way to make a slice sees to it. -/
def Ordered (slice : Slice) : Prop := ¬ slice.stop < slice.start

instance (slice : Slice) : Decidable slice.Ordered := by
  unfold Ordered
  infer_instance

/-- Nothing is cut off a list of entries between the bounds but what exceeds the cap. -/
theorem cut_of_contained {slice : Slice} {entries : List Entry}
    (contained : ∀ entry ∈ entries, slice.contains entry.column = true) :
    slice.cut entries = slice.cap entries := by
  have bounds : ∀ entry ∈ entries, ¬ entry.column < slice.start ∧ entry.column < slice.stop := by
    intro entry member
    simpa [contains] using contained entry member
  have started : entries.dropWhile (·.column < slice.start) = entries := by
    cases entries with
    | nil => rfl
    | cons first others =>
        exact List.dropWhile_cons_of_neg (by simpa using (bounds first List.mem_cons_self).1)
  have stopped : entries.takeWhile (·.column < slice.stop) = entries := by
    have inside : ∀ entry ∈ entries, decide (entry.column < slice.stop) = true :=
      fun entry member => decide_eq_true (bounds entry member).2
    have whole : (entries ++ []).takeWhile (·.column < slice.stop) = entries ++ [] :=
      List.takeWhile_append_of_pos inside
    rwa [List.append_nil] at whole
  rw [cut, started, stopped]

end Slice

namespace Row

/-- The part of a row between the bounds of a slice. -/
def within (row : Row) (slice : Slice) : Row := row.filter fun column _ => slice.contains column

theorem contains_of_mem_within {row : Row} {slice : Slice} :
    ∀ entry ∈ Row.toEntries (row.within slice), slice.contains entry.column = true := by
  intro entry member
  obtain ⟨held, inRow, rfl⟩ := List.mem_map.1 member
  exact (List.mem_filter.1 inRow).2

theorem ofList_toEntries (row : Row) :
    OrderedMap.ofList ((Row.toEntries row).map fun entry => (entry.column, entry.value)) = row := by
  rw [Row.toEntries, List.map_map]
  show OrderedMap.ofList (row.entries.map fun entry => entry) = row
  rw [List.map_id', OrderedMap.ofList_entries]

end Row

/-! ### The overlay -/

namespace Mutation

/-- The mutation without the additions outside a slice. -/
def inSlice (mutation : Mutation) (slice : Slice) : Mutation :=
  { mutation with additions := mutation.additions.filter fun column _ => slice.contains column }

theorem lookup_inSlice_of_contained (mutation : Mutation) {slice : Slice} {column : Bytes}
    (inside : slice.contains column = true) :
    (mutation.inSlice slice).lookup column = mutation.lookup column := by
  have added : (mutation.inSlice slice).additions.find? column =
      mutation.additions.find? column :=
    (OrderedMap.find?_filter mutation.additions slice.contains column).trans (if_pos inside)
  rw [lookup, added]
  rfl

/-- Outside of the slice nothing is added. -/
theorem lookup_inSlice_of_outside (mutation : Mutation) {slice : Slice} {column : Bytes}
    (outside : ¬ slice.contains column = true) :
    ((mutation.inSlice slice).lookup column).getD none = none := by
  have added : (mutation.inSlice slice).additions.find? column = none :=
    (OrderedMap.find?_filter mutation.additions slice.contains column).trans (if_neg outside)
  rw [lookup, added]
  dsimp only
  split <;> rfl

/-- Between the bounds of a slice, a mutation changes a row as it changes the part between them. -/
theorem applyTo_within (mutation : Mutation) (row : Row) (slice : Slice) :
    (mutation.inSlice slice).applyTo (row.within slice) = (mutation.applyTo row).within slice := by
  refine OrderedMap.ext_find? fun column => ?_
  rw [find?_applyTo, Row.within, OrderedMap.find?_filter, Row.within, OrderedMap.find?_filter,
    find?_applyTo]
  by_cases inside : slice.contains column = true
  · rw [if_pos inside, if_pos inside, lookup_inSlice_of_contained mutation inside]
  · rw [if_neg inside, if_neg inside, lookup_inSlice_of_outside mutation inside]

end Mutation

namespace Transaction

/-- Overlaying what is staged gives the slice of the row behind it. -/
theorem overlay_slice (row : Row) (staged : Mutation) (slice : Slice) :
    overlay (Row.slice row ⟨slice.start, slice.stop, none⟩) staged slice =
      Row.slice (staged.applyTo row) slice := by
  have committed : Row.slice row ⟨slice.start, slice.stop, none⟩ =
      Row.toEntries (row.within slice) := rfl
  have added : staged.addedEntries.filter (fun entry => slice.contains entry.column) =
      (staged.inSlice slice).addedEntries := by
    rw [Mutation.addedEntries, List.filter_map]
    rfl
  have merged : Row.change (row.within slice)
      (staged.addedEntries.filter fun entry => slice.contains entry.column)
      staged.deletedColumns = (staged.applyTo row).within slice := by
    rw [added]
    exact staged.applyTo_within row slice
  rw [committed, overlay]
  show slice.cut (Row.toEntries (Row.change (OrderedMap.ofList _) _ _)) = _
  rw [Row.ofList_toEntries, merged, Slice.cut_of_contained Row.contains_of_mem_within]
  rfl

/-! ### Reads -/

open CachedStores

variable {σ : Type} {manager : Manager σ}

/-- An open backend gives a handle for every name, and its cache mirrors the table. -/
theorem store_of_agrees (backend : TableBackend manager) (stripe : Bytes → Stripe)
    {pool : CachePool} {state : σ}
    (agrees : pool.Agrees (backend.refer state) (backend.tables state))
    (isOpen : backend.isOpen state = true) (name : String) :
    ∃ handle adopted, (pooled manager stripe).store name (pool, state) =
        (.ok handle, (adopted, state)) ∧
      handle.store = backend.refer state name ∧ adopted.Refers (backend.refer state) ∧
      adopted.Mirrors handle (Tables.table (backend.tables state) name) := by
  cases found : pool.find? name with
  | some handle =>
      exact ⟨handle, pool, store_of_found stripe found, agrees.refers name handle found,
        agrees.refers, agrees.mirrors name handle found⟩
  | none =>
      have opened := backend.openStore_of_open isOpen name
      obtain ⟨ofStore, stillRefers⟩ := agrees.refers.adopt name
      refine ⟨_, _, store_of_opened stripe found opened, ofStore, stillRefers, ?_⟩
      exact CachePool.mirrors_adopt found (backend.refer state name) _

theorem getSlice_of_staged (backend : TableBackend manager) (stripe : Bytes → Stripe)
    {calls : List RowChange} {bufferSize : Nat} {transaction : Transaction}
    (stages : (start bufferSize).Stages calls transaction) {pool : CachePool} {state : σ}
    (agrees : pool.Agrees (backend.refer state) (backend.tables state))
    (isOpen : backend.isOpen state = true) (store : String) (key : Bytes) {slice : Slice}
    (ordered : slice.Ordered) :
    ∃ read, transaction.getSlice (pooled manager stripe) store key slice (pool, state) =
        (.ok (Table.slice (Tables.table (Log.applyAll calls (backend.tables state)) store) key
          slice), (read, state)) ∧
      read.Refers (backend.refer state) := by
  obtain ⟨handle, adopted, acquired, ofStore, refers, mirrors⟩ :=
    store_of_agrees backend stripe agrees isOpen store
  have shown : Row.slice ((StoreMutations.mutationOf transaction.pending store key).applyTo
      (Tables.row (backend.tables state) store key)) slice =
        Table.slice (Tables.table (Log.applyAll calls (backend.tables state)) store) key slice :=
    congrArg (Row.slice · slice) (stages.row_mutationOf (backend.tables state) store key)
  have reads : ∀ key slice, manager.getSlice handle.store key slice state =
      (.ok (Table.slice (Tables.table (backend.tables state) store) key slice), state) := by
    intro key slice
    rw [ofStore]
    exact backend.reads state store key slice isOpen
  have opened : (Action.ofResult transaction.ensureOpen : Action (CachePool × σ) Unit)
      (pool, state) = (.ok (), (pool, state)) := by
    rw [ensureOpen_of_running stages.running]
    rfl
  have stillRefers : ∀ read : CachePool, read.handles = adopted.handles →
      read.Refers (backend.refer state) := by
    intro read handles name held found
    rw [CachePool.find?, handles] at found
    exact refers name held found
  rw [getSlice, Action.bind_of_ok opened, Action.bind_of_ok acquired, ← shown]
  cases staged : transaction.staged? store key with
  | none =>
      obtain ⟨read, answered, handles, -⟩ := getSlice_pooled stripe reads mirrors key slice
      refine ⟨read, answered.trans ?_, stillRefers read handles⟩
      rw [StoreMutations.mutationOf, show (transaction.pending.find? store).bind
        (fun rows => rows.find? key) = none from staged]
      rfl
  | some mutation =>
      -- The cap waits for the overlay, as a staged deletion lets a later column in.
      let bounds : Slice := ⟨slice.start, slice.stop, none⟩
      obtain ⟨read, answered, handles, -⟩ := getSlice_pooled stripe reads mirrors key bounds
      have between : Slice.between slice.start slice.stop = .ok bounds := if_neg ordered
      have bounded : (Action.ofResult (Slice.between slice.start slice.stop) :
          Action (CachePool × σ) Slice) (adopted, state) = (.ok bounds, (adopted, state)) := by
        rw [between]
        rfl
      refine ⟨read, ?_, stillRefers read handles⟩
      refine (Action.bind_of_ok bounded).trans ((Action.bind_of_ok answered).trans ?_)
      rw [StoreMutations.mutationOf, show (transaction.pending.find? store).bind
        (fun rows => rows.find? key) = some mutation from staged]
      exact congrArg (fun entries => (Except.ok entries, (read, state)))
        (overlay_slice (Tables.row (backend.tables state) store key) mutation slice)

/-- A read in a running transaction answers with the slice that the calls so far leave, which is the
slice that the store itself answers with once the transaction is committed. It changes neither
the backend nor, being a function of it, the transaction. -/
theorem getSlice_sees_writes (backend : TableBackend manager) (stripe : Bytes → Stripe)
    (calls : List RowChange) (bufferSize : Nat) (pool : CachePool) (state : σ)
    (agrees : pool.Agrees (backend.refer state) (backend.tables state))
    (isOpen : backend.isOpen state = true) (store : String) (key : Bytes) (slice : Slice)
    (ordered : slice.Ordered) :
    ∃ transaction entries read, (start bufferSize).stageAll calls = .ok transaction ∧
      transaction.getSlice (pooled manager stripe) store key slice (pool, state) =
        (.ok entries, (read, state)) ∧
      entries =
        Table.slice (Tables.table (Log.applyAll calls (backend.tables state)) store) key slice ∧
      ∃ outcome ended after,
        transaction.commit (pooled manager stripe) (read, state) = ((outcome, ended), after) ∧
        (outcome = .ok () →
          (StoreCall.getSlice store key slice).perform manager after.2 =
            (.ok (.entries entries), after.2)) ∧
        (backend.reliable → outcome = .ok ()) := by
  obtain ⟨transaction, staged, stages⟩ := stageAll_start bufferSize calls
  obtain ⟨read, answered, refers⟩ :=
    getSlice_of_staged backend stripe stages agrees isOpen store key ordered
  obtain ⟨outcome, after, front, flushed, -, shown, complete, succeeds⟩ :=
    writes_flush backend stripe transaction.bufferSize transaction.pending.entries
      (read, state) refers
  refine ⟨transaction, _, read, staged, answered, rfl, outcome, transaction.finished outcome, after,
    ?_, fun succeeded => ?_, fun reliable => succeeds ⟨reliable, isOpen⟩⟩
  · rw [commit_of_running stages.running, flushed]
  · obtain rfl := complete succeeded
    have stillOpen : backend.isOpen after.2 = true := (TableView.isOpen_eq shown).trans isOpen
    have tables : backend.tables after.2 =
        Log.applyAll (StoreMutations.rowChanges transaction.pending) (backend.tables state) :=
      TableView.tables_eq shown
    have row : Table.slice (Tables.table (backend.tables after.2) store) key slice =
        Table.slice (Tables.table (Log.applyAll calls (backend.tables state)) store) key slice := by
      rw [tables]
      refine congrArg (Row.slice · slice) ?_
      exact (StoreMutations.row_rowChanges _ _ store key).trans (stages.row_mutationOf _ store key)
    have reread := backend.reads after.2 store key slice stillOpen
    rw [row] at reread
    rcases backend.opens after.2 store with opened | ⟨closed, -⟩
    · exact (Action.bind_of_ok opened).trans (Action.bind_of_ok reread)
    · exact absurd (stillOpen.symm.trans closed) Bool.false_ne_true.symm

/-- A backend in memory with a row of three columns. -/
def threeColumns : Memory :=
  ⟨.ofTables (Log.applyAll [⟨"s", [1], [⟨[1], [7]⟩, ⟨[2], [7]⟩, ⟨[3], [7]⟩], []⟩] .empty), false⟩

/-- A deletion below the cap of a slice lets a committed column in that was beyond it. -/
theorem getSlice_sees_writes_deletionBelowCap :
    ((CachePool.empty 4).Agrees (Memory.tableBackend.refer threeColumns)
          (Memory.tableBackend.tables threeColumns) ∧
        Memory.tableBackend.isOpen threeColumns = true ∧ Slice.Ordered ⟨[1], [9], some 2⟩) ∧
      ∃ transaction read,
        (start 1).stageAll [⟨"s", [1], [⟨[1], [0]⟩, ⟨[9], [9]⟩], [[2]]⟩] = .ok transaction ∧
        transaction.getSlice (pooled Memory.manager Stripe.ofKey) "s" [1] ⟨[1], [9], some 2⟩
          (.empty 4, threeColumns) = (.ok [⟨[1], [0]⟩, ⟨[3], [7]⟩], (read, threeColumns)) := by
  have agrees : (CachePool.empty 4).Agrees (Memory.tableBackend.refer threeColumns)
      (Memory.tableBackend.tables threeColumns) :=
    ⟨CachePool.refers_empty 4, nofun⟩
  have ordered : Slice.Ordered ⟨[1], [9], some 2⟩ := by decide
  obtain ⟨transaction, entries, read, staged, answered, same, -⟩ :=
    getSlice_sees_writes Memory.tableBackend Stripe.ofKey
      [⟨"s", [1], [⟨[1], [0]⟩, ⟨[9], [9]⟩], [[2]]⟩] 1 (.empty 4) threeColumns agrees rfl "s" [1]
      ⟨[1], [9], some 2⟩ ordered
  have shown : entries = [⟨[1], [0]⟩, ⟨[3], [7]⟩] := same.trans (by decide +kernel)
  subst shown
  exact ⟨⟨agrees, rfl, ordered⟩, transaction, read, staged, answered⟩

end Transaction

end GraphStore
