import GraphStore.Manager.Memory
import GraphStore.Proofs.Manager.Calls
import GraphStore.Proofs.Manager.Coherence

/-!
Contract: managers of generations that look first whether they have been closed.

Owns the interface of both backends (`GuardedManager`): a call on a store is refused where the
manager has been closed, and else it reads the tables of a generation or writes rows to them; a row
is written as a whole or not at all. What a call on an open manager answers is said here once, with
one lemma for each call, and so is what a closed manager refuses (`GuardedManager.refuses`). What
differs between the backends is how a row is written, and what a batch does to one store.
-/

namespace GraphStore

namespace Action

variable {σ α : Type}

def ensureOpen (closed : σ → Bool) (component : Component) : Action σ Unit := Action.of fun state =>
  if closed state then (.error (.closed component), state) else (.ok (), state)

section EnsureOpen

variable {closed : σ → Bool} {component : Component} {state : σ}

theorem ensureOpen_of_open (isOpen : closed state = false) :
    ensureOpen closed component state = (.ok (), state) := by
  rw [ensureOpen, Action.of, isOpen]
  rfl

theorem ensureOpen_of_closed (isClosed : closed state = true) :
    ensureOpen closed component state = (.error (.closed component), state) := by
  rw [ensureOpen, Action.of, isClosed]
  rfl

theorem ensureOpen_bind_of_open (isOpen : closed state = false) (next : Unit → Action σ α) :
    (ensureOpen closed component >>= next) state = next () state :=
  bind_of_ok (ensureOpen_of_open isOpen)

theorem ensureOpen_bind_of_closed (isClosed : closed state = true) (next : Unit → Action σ α) :
    (ensureOpen closed component >>= next) state = (.error (.closed component), state) :=
  bind_of_error (ensureOpen_of_closed isClosed)

end EnsureOpen

/-- A recursion that does one thing for each member of a list is the loop over the list. -/
theorem eq_forM {run : List α → Action σ Unit} {once : α → Action σ Unit} (nil : run [] = pure ())
    (cons : ∀ member members, run (member :: members) = once member >>= fun _ => run members)
    (members : List α) : run members = forM members once := by
  induction members with
  | nil => exact nil
  | cons member members inductionHypothesis =>
      rw [cons, List.forM_cons, inductionHypothesis]

end Action

/-- A manager of generations that looks first, in every call on a store, whether it has been closed;
that its storage is emptied it does not refuse. -/
structure GuardedManager {σ : Type} (manager : Manager σ) where
  stores : σ → Generations
  closed : σ → Bool
  component : Component
  /-- Writes a row through a handle. -/
  write : StoreRef → Bytes → List Entry → List Bytes → Action σ Unit
  /-- Opens a store and writes rows of it, as a part of a batch. -/
  writeStore : String × OrderedMap Bytes Mutation → Action σ Unit
  /-- An open manager takes every row. -/
  reliable : Prop
  opens : ∀ name, manager.openStore name = do
    Action.ensureOpen closed component
    return (stores (← get)).refer name
  reads : ∀ store key slice, manager.getSlice store key slice = do
    Action.ensureOpen closed component
    return Table.slice ((stores (← get)).table store) key slice
  mutates : ∀ store key additions deletions, manager.mutate store key additions deletions = do
    Action.ensureOpen closed component
    write store key additions deletions
  swaps : ∀ store key column expected new,
    manager.compareAndSwap store key column expected new = do
      Action.ensureOpen closed component
      if Table.cell? ((stores (← get)).table store) key column = expected then
        write store key [⟨column, new⟩] []
        return true
      else return false
  scans : ∀ store, manager.startScan store = Action.ensureOpen closed component
  pages : ∀ store range slice after size, manager.scanPage store range slice after size = do
    Action.ensureOpen closed component
    return Table.page ((stores (← get)).table store) range slice after size
  counts : ∀ store state, manager.rowCount store state = ((stores state).table store).size
  batches : ∀ mutations, manager.mutateMany mutations = forM mutations.entries writeStore
  refusesStore : ∀ {state}, closed state = true → ∀ name rows,
    writeStore (name, rows) state = (.error (.persistence name (.closed component)), state)
  writes : ∀ store key additions deletions, (write store key additions deletions).Makes stores
    fun before => before.change store key additions deletions
  writesOpen : ∀ store key additions deletions, (write store key additions deletions).Keeps closed
  takes : reliable → ∀ store key additions deletions state,
    (write store key additions deletions state).1 = .ok ()
  clears : manager.clearStorage.Makes stores Generations.clear
  clearsOpen : manager.clearStorage.Keeps closed
  clearsClosed : ∀ state, (manager.clearStorage state).1 ≠ .error (.closed component)
  closes : ∀ {state after}, manager.close state = (.ok (), after) → closed after = true
  closesOnce : ∀ {state}, closed state = true → manager.close state = (.ok (), state)

/-- Every call on a store is refused and changes nothing. -/
structure RefusesCalls {σ : Type} (manager : Manager σ) (cause : StoreError) (state : σ) :
    Prop where
  opens : ∀ name, manager.openStore name state = (.error cause, state)
  reads : ∀ handle key slice, manager.getSlice handle key slice state = (.error cause, state)
  mutates : ∀ handle key additions deletions,
    manager.mutate handle key additions deletions state = (.error cause, state)
  swaps : ∀ handle key column expected new,
    manager.compareAndSwap handle key column expected new state = (.error cause, state)
  scans : ∀ handle, manager.startScan handle state = (.error cause, state)
  pages : ∀ handle range slice lastKey size,
    manager.scanPage handle range slice lastKey size state = (.error cause, state)

namespace GuardedManager

variable {σ : Type} {manager : Manager σ} (guarded : GuardedManager manager) {state : σ}

/-- A closed manager refuses every call on a store. -/
theorem refuses (closed : guarded.closed state = true) :
    RefusesCalls manager (.closed guarded.component) state where
  opens name := by
    rw [guarded.opens, Action.ensureOpen_bind_of_closed closed]
  reads handle key slice := by
    rw [guarded.reads, Action.ensureOpen_bind_of_closed closed]
  mutates handle key additions deletions := by
    rw [guarded.mutates, Action.ensureOpen_bind_of_closed closed]
  swaps handle key column expected new := by
    rw [guarded.swaps, Action.ensureOpen_bind_of_closed closed]
  scans handle := by
    rw [guarded.scans, Action.ensureOpen_of_closed closed]
  pages handle range slice lastKey size := by
    rw [guarded.pages, Action.ensureOpen_bind_of_closed closed]

/-- A batch of one store is refused for that store. -/
theorem mutateMany_of_closed (closed : guarded.closed state = true) (name : String)
    (rows : OrderedMap Bytes Mutation) :
    manager.mutateMany (OrderedMap.empty.insert name rows) state =
      (.error (.persistence name (.closed guarded.component)), state) := by
  rw [guarded.batches]
  exact Action.bind_of_error (guarded.refusesStore closed name rows)

/-! ### Open managers -/

section Open

variable (isOpen : guarded.closed state = false)
include isOpen

theorem openStore_of_open (name : String) :
    manager.openStore name state = (.ok ((guarded.stores state).refer name), state) := by
  rw [guarded.opens, Action.ensureOpen_bind_of_open isOpen]
  rfl

theorem startScan_of_open (store : StoreRef) : manager.startScan store state = (.ok (), state) := by
  rw [guarded.scans, Action.ensureOpen_of_open isOpen]

/-- An open manager answers with the slice of the table that the handle reaches. -/
theorem getSlice_of_handle (store : StoreRef) (key : Bytes) (slice : Slice) :
    manager.getSlice store key slice state =
      (.ok (Table.slice ((guarded.stores state).table store) key slice), state) := by
  rw [guarded.reads, Action.ensureOpen_bind_of_open isOpen]
  rfl

theorem scanPage_of_handle (store : StoreRef) (range : KeyRange) (slice : Slice)
    (after : Option Bytes) (size : Nat) :
    manager.scanPage store range slice after size state =
      (.ok (Table.page ((guarded.stores state).table store) range slice after size), state) := by
  rw [guarded.pages, Action.ensureOpen_bind_of_open isOpen]
  rfl

/-- On an open manager a mutation is the write of its row. -/
theorem mutate_of_open (store : StoreRef) (key : Bytes) (additions : List Entry)
    (deletions : List Bytes) :
    manager.mutate store key additions deletions state =
      guarded.write store key additions deletions state := by
  rw [guarded.mutates, Action.ensureOpen_bind_of_open isOpen]

/-- A conditional write is a comparison, and the write of a row behind a success. -/
theorem compareAndSwap_of_written (store : StoreRef) (key column : Bytes) (expected : Option Bytes)
    (new : Bytes) {outcome : Result Unit} {after : σ}
    (written : guarded.write store key [⟨column, new⟩] [] state = (outcome, after)) :
    manager.compareAndSwap store key column expected new state =
      if Table.cell? ((guarded.stores state).table store) key column = expected then
        (outcome.map fun _ => true, after)
      else (.ok false, state) := by
  rw [guarded.swaps, Action.ensureOpen_bind_of_open isOpen, Action.get_bind]
  split
  · refine (Action.bind_pure_apply _ (fun _ => true) _).trans ?_
    rw [written]
  · rfl

/-! ### Stores by name -/

theorem getSlice_of_open (name : String) (key : Bytes) (slice : Slice) :
    manager.getSlice ((guarded.stores state).refer name) key slice state =
      (.ok (Table.slice (Tables.table (guarded.stores state).current name) key slice), state) := by
  rw [guarded.getSlice_of_handle isOpen, Generations.table_refer]

/-- A conditional write by name compares with the current table of the store. -/
theorem compareAndSwap_of_open (name : String) (key column : Bytes) (expected : Option Bytes)
    (new : Bytes) {outcome : Result Unit} {after : σ}
    (written : guarded.write ((guarded.stores state).refer name) key [⟨column, new⟩] [] state =
      (outcome, after)) :
    manager.compareAndSwap ((guarded.stores state).refer name) key column expected new state =
      if Table.cell? (Tables.table (guarded.stores state).current name) key column = expected then
        (outcome.map fun _ => true, after)
      else (.ok false, state) := by
  rw [guarded.compareAndSwap_of_written isOpen _ key column expected new written,
    Generations.table_refer]

theorem steady_scanPage (name : String) (range : KeyRange) (slice : Slice) :
    Steady (manager.scanPage ((guarded.stores state).refer name) range slice)
      (fun after size => .ok (Table.page (Tables.table (guarded.stores state).current name) range
        slice after size)) state := by
  intro after size
  rw [guarded.scanPage_of_handle isOpen, Generations.table_refer]

theorem perform_getSlice (name : String) (key : Bytes) (slice : Slice) :
    (StoreCall.getSlice name key slice).perform manager state =
      (.ok (StoreCall.answer (guarded.stores state).current (.getSlice name key slice)), state) :=
  (Action.bind_of_ok (guarded.openStore_of_open isOpen name)).trans
    (Action.bind_of_ok (guarded.getSlice_of_open isOpen name key slice))

/-- A walk over the keys of a store by name yields the rows of its current table. -/
theorem perform_getKeys (name : String) (range : KeyRange) (slice : Slice) (selector : Selector) :
    (StoreCall.getKeys name range slice selector).perform manager state =
      (.ok (StoreCall.answer (guarded.stores state).current (.getKeys name range slice selector)),
        state) := by
  have walked := manager.allKeys_of_steady (guarded.startScan_of_open isOpen _)
    (guarded.steady_scanPage isOpen name range slice) selector
  rw [guarded.counts, Generations.table_refer] at walked
  exact (Action.bind_of_ok (guarded.openStore_of_open isOpen name)).trans (Action.bind_of_ok walked)

end Open

end GuardedManager

/-! ### Both backends -/

namespace Memory

def writeStore (store : String × OrderedMap Bytes Mutation) : Action Memory Unit := do
  let reference ← Action.mapError (.persistence store.1) (openStore store.1)
  modifyStores (changeRows reference store.2.entries)

theorem mutateStores_eq_forM (batch : List (String × OrderedMap Bytes Mutation)) :
    mutateStores batch = forM batch writeStore :=
  Action.eq_forM rfl (fun _ _ => by rw [mutateStores, writeStore, bind_assoc]) batch

/-- Rows are written to memory whenever the backend is open. -/
def guarded : GuardedManager manager where
  stores := Memory.stores
  closed := Memory.closed
  component := .memoryManager
  write store key additions deletions :=
    modifyStores fun stores => stores.change store key additions deletions
  writeStore := writeStore
  reliable := True
  opens _ := rfl
  reads _ _ _ := rfl
  mutates _ _ _ _ := rfl
  swaps _ _ _ _ _ := rfl
  scans _ := rfl
  pages _ _ _ _ _ := rfl
  counts _ _ := rfl
  batches mutations := mutateStores_eq_forM mutations.entries
  refusesStore closed _ _ :=
    Action.bind_of_error (Action.mapError_of_error (Action.ensureOpen_bind_of_closed closed _))
  writes _ _ _ _ := .of_modify fun _ => rfl
  writesOpen _ _ _ _ _ := rfl
  takes _ _ _ _ _ _ := rfl
  clears := .of_modify fun _ => rfl
  clearsOpen _ := rfl
  clearsClosed _ := nofun
  closes success := by
    obtain rfl := congrArg Prod.snd success
    rfl
  closesOnce {memory} closed := by
    obtain ⟨stores, _⟩ := memory
    obtain rfl : _ = true := closed
    rfl

end Memory

namespace Embedded

/-- What a batch with the log does to one store. -/
def writeStore (store : String × OrderedMap Bytes Mutation) : Action Embedded Unit :=
  Action.mapError (.persistence store.1) do
    let reference ← openStore store.1
    writeRows reference store.2.entries

theorem mutateStores_eq_forM (batch : List (String × OrderedMap Bytes Mutation)) :
    mutateStores batch = forM batch writeStore :=
  Action.eq_forM rfl (fun _ _ => by rw [mutateStores, writeStore]) batch

/-- Rows reach the tables when the log has taken them. -/
def guarded : GuardedManager manager where
  stores := Embedded.stores
  closed := Embedded.closed
  component := .embeddedManager
  write := writeRow
  writeStore := writeStore
  reliable := False
  opens _ := rfl
  reads _ _ _ := rfl
  mutates _ _ _ _ := rfl
  swaps _ _ _ _ _ := rfl
  scans _ := rfl
  pages _ _ _ _ _ := rfl
  counts _ _ := rfl
  batches mutations := mutateStores_eq_forM mutations.entries
  refusesStore closed _ _ :=
    Action.mapError_of_error (Action.bind_of_error (Action.ensureOpen_bind_of_closed closed _))
  writes _ _ _ _ := .behind (fun _ => rfl) (.of_modify fun _ => rfl)
  writesOpen _ _ _ _ := .bind (fun _ => rfl) fun _ _ => rfl
  takes := False.elim
  clears := .behind (fun _ => rfl) (.of_modify fun _ => rfl)
  clearsOpen := .bind (fun _ => rfl) fun _ _ => rfl
  clearsClosed embedded := by
    have result := clearStorage_result embedded
    show (clearStorage embedded).1 ≠ _
    rcases emptied : clearStorage embedded with ⟨outcome, after⟩
    rw [emptied] at result
    cases result with
    | cleared device bytes position => exact nofun
    | uncut faulty => exact nofun
    | cut device bytes position faulty => exact nofun
  closes {embedded after} success := by
    change close embedded = _ at success
    rw [close, Action.get_bind] at success
    split at success
    · obtain ⟨-, rfl⟩ := Action.pure_eq_ok.1 success
      assumption
    · obtain rfl := congrArg Prod.snd success
      rfl
  closesOnce {embedded} closed := by
    show close embedded = _
    rw [close, Action.get_bind, if_pos closed]
    rfl

end Embedded

end GraphStore
