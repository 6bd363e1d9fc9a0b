import GraphStore.Proofs.Manager.Running

/-!
Contract: the logging backend behaves like the backend in memory.

Owns one specification lemma for a call on each of the two backends, both against the calls on
tables, and the simulation that follows (`replies_observeAll`): compaction and opening the log anew
may happen at any point of a run and no reply shows it.
-/

namespace GraphStore

/-! ### The backend in memory -/

namespace Memory

theorem changeRows_refer (name : String) (rows : List (Bytes × Mutation))
    (stores : Generations) :
    changeRows (stores.refer name) rows stores =
      stores.applyAll (StoreCall.batchRows name rows) := by
  induction rows generalizing stores with
  | nil => rfl
  | cons row rows inductionHypothesis =>
      rw [changeRows, List.foldl_cons, Generations.change_refer]
      exact inductionHypothesis
        (stores.applyAll [⟨name, row.1, row.2.addedEntries, row.2.deletedColumns⟩])

theorem writeStore_of_open (store : String × OrderedMap Bytes Mutation) {memory : Memory}
    (isOpen : memory.closed = false) :
    writeStore store memory = (.ok (), { memory with
      stores := memory.stores.applyAll (StoreCall.batchRows store.1 store.2.entries) }) := by
  have opened : (openStore store.1).mapError (.persistence store.1) memory =
      (.ok (memory.stores.refer store.1), memory) :=
    Action.mapError_of_ok (guarded.openStore_of_open isOpen store.1)
  rw [writeStore, Action.bind_of_ok opened, modifyStores, Action.modify_apply, changeRows_refer]

theorem mutateStores_of_open (batch : List (String × OrderedMap Bytes Mutation)) {memory : Memory}
    (isOpen : memory.closed = false) :
    mutateStores batch memory = (.ok (), { memory with
      stores := memory.stores.applyAll
        (batch.flatMap fun store => StoreCall.batchRows store.1 store.2.entries) }) := by
  rw [mutateStores_eq_forM]
  induction batch generalizing memory with
  | nil => rfl
  | cons store batch inductionHypothesis =>
      let changed : Memory := { memory with
        stores := memory.stores.applyAll (StoreCall.batchRows store.1 store.2.entries) }
      have stillOpen : changed.closed = false := isOpen
      rw [List.forM_cons, Action.bind_of_ok (writeStore_of_open store isOpen),
        inductionHypothesis stillOpen, List.flatMap_cons, Generations.applyAll_append]

theorem write_refer (memory : Memory) (name : String) (key : Bytes) (additions : List Entry)
    (deletions : List Bytes) :
    guarded.write (memory.stores.refer name) key additions deletions memory =
      (.ok (), { memory with
        stores := memory.stores.applyAll [⟨name, key, additions, deletions⟩] }) := by
  rw [← Generations.change_refer]
  rfl

/-- A call on the open backend in memory answers and leaves what it does on the tables. -/
theorem perform_of_open {memory : Memory} (isOpen : memory.closed = false) (call : StoreCall) :
    ∃ after, call.perform manager memory = (.ok (call.answer memory.stores.current), after) ∧
      after.closed = false ∧ after.stores.current = call.leave memory.stores.current := by
  have opened := guarded.openStore_of_open isOpen
  cases call with
  | mutate name key additions deletions =>
      have changed := (guarded.mutate_of_open isOpen _ key additions deletions).trans
        (write_refer memory name key additions deletions)
      exact ⟨_, (Action.bind_of_ok (opened name)).trans (Action.bind_of_ok changed), isOpen, rfl⟩
  | compareAndSwap name key column expected new =>
      have compared := guarded.compareAndSwap_of_open isOpen name key column expected new
        (write_refer memory name key [⟨column, new⟩] [])
      by_cases found : Table.cell? (Tables.table memory.stores.current name) key column = expected
      · replace compared := compared.trans (if_pos found)
        rw [StoreCall.answer_of_expected found, StoreCall.leave_of_expected found]
        exact ⟨_, (Action.bind_of_ok (opened name)).trans (Action.bind_of_ok compared), isOpen, rfl⟩
      · replace compared := compared.trans (if_neg found)
        rw [StoreCall.answer_of_unexpected found, StoreCall.leave_of_unexpected found]
        exact ⟨_, (Action.bind_of_ok (opened name)).trans (Action.bind_of_ok compared), isOpen, rfl⟩
  | getSlice name key slice =>
      exact ⟨memory, guarded.perform_getSlice isOpen name key slice, isOpen, rfl⟩
  | getKeys name range slice selector =>
      exact ⟨memory, guarded.perform_getKeys isOpen name range slice selector, isOpen, rfl⟩
  | mutateMany mutations =>
      exact ⟨_, Action.bind_of_ok (mutateStores_of_open mutations.entries isOpen), isOpen, rfl⟩
  | clearStorage => exact ⟨{ memory with stores := memory.stores.clear }, rfl, isOpen, rfl⟩

end Memory

/-! ### Runs -/

namespace Embedded

open Log

/-- What happens to the backend with the log in a run. -/
inductive Event where
  | call (call : StoreCall)
  | compact
  | reopen (syncWrites : Bool)

inductive Observation where
  | replied (reply : Result Reply)
  | compacted (records : Result Nat)
  | reopened (found : Result ReplayStats)

def observe (embedded : Embedded) : Event → Observation × Embedded
  | .call call =>
    let (reply, after) := call.perform manager embedded
    (.replied reply, after)
  | .compact =>
    let (records, after) := Embedded.compact embedded
    (.compacted records, after)
  | .reopen syncWrites =>
    let (found, after) := embedded.reopen syncWrites
    (.reopened found, after)

def observeAll : List Event → Embedded → List Observation
  | [], _ => []
  | event :: events, embedded =>
    (embedded.observe event).1 :: observeAll events (embedded.observe event).2

def calls (events : List Event) : List StoreCall :=
  events.filterMap fun
    | .call call => some call
    | _ => none

def replies (observations : List Observation) : List (Result Reply) :=
  observations.filterMap fun
    | .replied reply => some reply
    | _ => none

/-- A log was opened anew with all of it found. -/
def Observation.Complete : Observation → Prop
  | .reopened found => ∃ stats, found = .ok stats ∧ stats.discarded = 0
  | _ => True

/-- Whatever is put between the calls, the replies are those of the backend in memory. -/
theorem simulation {embedded : Embedded} {changes : List RowChange}
    (running : embedded.Running changes) {memory : Memory} (isOpen : memory.closed = false)
    (agree : Tables.Agree embedded.stores.current memory.stores.current) (events : List Event)
    (fits : ∀ call ∈ calls events, call.Fits) :
    replies (observeAll events embedded) =
        (StoreCall.performAll Memory.manager (calls events) memory).1 ∧
      ∀ observation ∈ observeAll events embedded, observation.Complete := by
  induction events generalizing embedded changes memory with
  | nil => exact ⟨rfl, nofun⟩
  | cons event events inductionHypothesis =>
      cases event with
      | call call =>
          obtain ⟨callFits, othersFit⟩ := List.forall_mem_cons.1 fits
          obtain ⟨outcome, after, logged, result⟩ := running.perform_result call
          obtain ⟨recorded, stillRunning, left, rfl⟩ := result.answered_of_fits callFits
          obtain ⟨other, answered, stillOpen, otherLeft⟩ := Memory.perform_of_open isOpen call
          have stillAgree : Tables.Agree after.stores.current other.stores.current := by
            rw [left, otherLeft]
            exact call.leave_agree agree
          obtain ⟨same, complete⟩ :=
            inductionHypothesis stillRunning stillOpen stillAgree othersFit
          have observed : embedded.observe (.call call) =
              (.replied (.ok (call.answer embedded.stores.current)), after) := by
            rw [observe, logged]
          rw [observeAll, observed]
          refine ⟨?_, List.forall_mem_cons.2 ⟨trivial, complete⟩⟩
          show .ok (call.answer embedded.stores.current) :: replies (observeAll events after) =
            (StoreCall.performAll Memory.manager (call :: calls events) memory).1
          rw [StoreCall.performAll, answered, same, call.answer_congr agree]
      | compact =>
          obtain ⟨records, after, recorded, compacted, stillRunning, stores⟩ := running.compact
          have observed : embedded.observe .compact = (.compacted records, after) := by
            rw [observe, compacted]
          obtain ⟨same, complete⟩ :=
            inductionHypothesis stillRunning isOpen (stores ▸ agree) fits
          rw [observeAll, observed]
          exact ⟨same, List.forall_mem_cons.2 ⟨trivial, complete⟩⟩
      | reopen syncWrites =>
          obtain ⟨stats, after, reopened, nothingLost, stillRunning, recovered⟩ :=
            running.reopen syncWrites
          have observed :
              embedded.observe (.reopen syncWrites) = (.reopened (.ok stats), after) := by
            rw [observe, reopened]
          obtain ⟨same, complete⟩ :=
            inductionHypothesis stillRunning isOpen (recovered.trans agree) fits
          rw [observeAll, observed]
          exact ⟨same, List.forall_mem_cons.2 ⟨⟨stats, rfl, nothingLost⟩, complete⟩⟩

/-- From an empty log on, every reply of the backend with the log is the reply of the backend in
memory to the same calls, wherever the log is compacted or opened anew in between, and each
opening finds the whole log. -/
theorem replies_observeAll (syncWrites : Bool) (events : List Event)
    (fits : ∀ call ∈ calls events, call.Fits) :
    ∃ embedded, ((openLog syncWrites).runOn (LogFile.ofBytes [])).1 = .ok embedded ∧
      replies (observeAll events embedded) =
        (StoreCall.performAll Memory.manager (calls events) .empty).1 ∧
      ∀ observation ∈ observeAll events embedded, observation.Complete := by
  obtain ⟨embedded, opened, running⟩ := openLog_empty syncWrites
  exact ⟨embedded, opened, simulation running rfl running.coherent.agree.symm events fits⟩

/-- Writes of every kind with a compaction, openings of the log and a clearing between them. -/
def mixedRun : List Event :=
  [.call (.mutate "s" [1] [⟨[2], [3]⟩, ⟨[4], [5]⟩] []), .compact,
    .call (.compareAndSwap "s" [1] [2] (some [3]) [6]), .reopen true,
    .call (.getSlice "s" [1] Slice.fullRow), .call .clearStorage, .reopen false,
    .call (.mutateMany (.ofList
      [("s", .ofList [([7], .ofParts [⟨[2], [8]⟩] [[4]]), ([1], .ofParts [⟨[2], [9]⟩] [])]),
        ("t", .ofList [([1], .ofParts [⟨[2], [3]⟩] [])])])),
    .compact, .reopen true, .call (.getKeys "s" .full .fullRow ⟨fun _ => true, 10, 0⟩)]

theorem replies_observeAll_mixedRun :
    (∀ call ∈ calls mixedRun, call.Fits) ∧
      ∃ embedded, ((openLog true).runOn (LogFile.ofBytes [])).1 = .ok embedded ∧
        replies (observeAll mixedRun embedded) =
          (StoreCall.performAll Memory.manager (calls mixedRun) .empty).1 ∧
        ∀ observation ∈ observeAll mixedRun embedded, observation.Complete := by
  have fits : ∀ call ∈ calls mixedRun, call.Fits := by decide +kernel
  exact ⟨fits, replies_observeAll true mixedRun fits⟩

end Embedded

end GraphStore
