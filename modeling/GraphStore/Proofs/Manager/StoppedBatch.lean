import GraphStore.Proofs.Transaction.Failing

/-!
Contract: what a batch change that fails leaves behind.

Owns the places where a batch may stop (`StoreMutations.Stop`) and what it means that it has stopped
at one of them: the rows in front of it are written, and no others (`StoresView.Stopped`). A batch
works store by store, so that what holds of a batch of one store holds of every batch, with whatever
other callers do between the stores (`StoresView.stopsAtOne_of_steps`). The batches of both backends
name the store that they stop in. The batch that goes row by row names it where a row is not
written, but answers the failure of an opening as it is (`batches_stop`).
-/

namespace GraphStore

open StoreMutations (mutationOf)

/-! ### Where a batch stops -/

/-- Where a batch stops: at a row of a store, or while it opens the store. -/
structure StoreMutations.Stop where
  store : String
  row : Option Bytes
deriving DecidableEq, Repr

namespace StoreMutations.Stop

/-- The row lies in front of the stop, by its store and then by its key. -/
def Passed (stop : Stop) (name : String) (key : Bytes) : Prop :=
  name < stop.store ∨ name = stop.store ∧ ∃ row, stop.row = some row ∧ key < row

end StoreMutations.Stop

open StoreMutations (Stop)

def StoreError.NamesStop (stop : Stop) (failure : StoreError) : Prop := failure.Names stop.store

namespace StoresView

variable {σ : Type}

/-- A batch has stopped: what is pending is applied to the rows in front of the stop, and every
other row is as before. -/
structure Stopped (view : StoresView σ) (pending : StoreMutations) (stop : Stop)
    (before after : σ) : Prop where
  staged : ∃ rows, pending.find? stop.store = some rows ∧
    ∀ row, stop.row = some row → row ∈ rows.keys
  applied : ∀ name key, stop.Passed name key → Tables.row (view.tables after) name key =
    (mutationOf pending name key).applyTo (Tables.row (view.tables before) name key)
  untouched : ∀ name key, ¬ stop.Passed name key →
    Tables.row (view.tables after) name key = Tables.row (view.tables before) name key

/-- The rows of a store in front of the one that is not written; none while the store is opened. -/
inductive Front (rows : OrderedMap Bytes Mutation) : Option Bytes → List (Bytes × Mutation) → Prop
  | opening : Front rows none []
  | writing {made unmade : List (Bytes × Mutation)} {key : Bytes} {mutation : Mutation}
      (entries : rows.entries = made ++ (key, mutation) :: unmade) : Front rows (some key) made

/-- What a batch comes to, store by store: all of it is written, or what lies in front of a stop,
and the failure is as told. -/
inductive Ran (view : StoresView σ) (told : Stop → StoreError → Prop) (before : σ) :
    List (String × OrderedMap Bytes Mutation) → Result Unit → σ → Prop
  | all {stores : List (String × OrderedMap Bytes Mutation)} {after : σ}
      (tables : view.tables after = Log.applyAll
        (stores.flatMap fun store => StoreCall.batchRows store.1 store.2.entries)
        (view.tables before)) : Ran view told before stores (.ok ()) after
  | stopped {earlier later : List (String × OrderedMap Bytes Mutation)} {store : String}
      {rows : OrderedMap Bytes Mutation} {row : Option Bytes} {made : List (Bytes × Mutation)}
      {failure : StoreError} {after : σ} (front : Front rows row made)
      (tells : told ⟨store, row⟩ failure)
      (tables : view.tables after = Log.applyAll
        (earlier.flatMap (fun store => StoreCall.batchRows store.1 store.2.entries) ++
          StoreCall.batchRows store made) (view.tables before)) :
      Ran view told before (earlier ++ (store, rows) :: later) (.error failure) after

namespace Front

variable {rows : OrderedMap Bytes Mutation} {row : Option Bytes} {made : List (Bytes × Mutation)}
  {key bound : Bytes}

theorem split (front : Front rows row made) : ∃ unmade, rows.entries = made ++ unmade := by
  cases front with
  | opening => exact ⟨rows.entries, rfl⟩
  | writing entries => exact ⟨_, entries⟩

theorem mem_keys (front : Front rows (some key) made) : key ∈ rows.keys := by
  cases front with
  | writing entries =>
      rw [OrderedMap.keys, entries, List.map_append]
      exact List.mem_append_right _ List.mem_cons_self

theorem lt_of_made (front : Front rows row made) (listed : key ∈ made.map Prod.fst) :
    ∃ bound, row = some bound ∧ key < bound := by
  cases front with
  | opening => exact nomatch listed
  | writing entries =>
      obtain ⟨entry, member, rfl⟩ := List.mem_map.1 listed
      have ascending := rows.ascending
      rw [entries, List.pairwise_append] at ascending
      exact ⟨_, rfl, ascending.2.2 entry member _ List.mem_cons_self⟩

theorem made_of_lt (front : Front rows (some bound) made) (less : key < bound)
    (listed : key ∈ rows.keys) : key ∈ made.map Prod.fst := by
  cases front with
  | writing entries =>
      have ascending := rows.ascending
      rw [entries, List.pairwise_append, List.pairwise_cons] at ascending
      obtain ⟨entry, member, rfl⟩ := List.mem_map.1 listed
      rw [entries, List.mem_append, List.mem_cons] at member
      rcases member with inFront | rfl | behind
      · exact List.mem_map_of_mem inFront
      · exact absurd less Std.lt_irrefl
      · exact absurd (Std.lt_trans less (ascending.2.1.1 entry behind)) Std.lt_irrefl

end Front

namespace Ran

variable {view : StoresView σ} {told : Stop → StoreError → Prop} {before middle after : σ}
  {name : String} {rows : OrderedMap Bytes Mutation} {outcome : Result Unit}
  {stores : List (String × OrderedMap Bytes Mutation)} {failure : StoreError}

theorem congr (tables : view.tables middle = view.tables before)
    (ran : view.Ran told middle stores outcome after) :
    view.Ran told before stores outcome after := by
  cases ran with
  | all tablesNext => exact .all (by rw [tablesNext, tables])
  | stopped front tells tablesNext => exact .stopped front tells (by rw [tablesNext, tables])

/-- A batch that succeeds writes all of its rows. -/
theorem tables_of_ok (ran : view.Ran told before stores (.ok ()) after) :
    view.tables after = Log.applyAll
      (stores.flatMap fun store => StoreCall.batchRows store.1 store.2.entries)
      (view.tables before) := by
  cases ran with
  | all tables => exact tables

/-- What comes behind a store that is written. -/
theorem behind (first : view.Ran told before [(name, rows)] (.ok ()) middle)
    (ran : view.Ran told middle stores outcome after) :
    view.Ran told before ((name, rows) :: stores) outcome after := by
  have tables := first.tables_of_ok
  rw [List.flatMap_singleton] at tables
  cases ran with
  | all tablesNext =>
      refine .all ?_
      rw [tablesNext, tables, ← Log.applyAll_append, List.flatMap_cons]
  | stopped front tells tablesNext =>
      rw [← List.cons_append]
      refine .stopped front tells ?_
      rw [tablesNext, tables, ← Log.applyAll_append, List.flatMap_cons, List.append_assoc]

/-- What comes in front of stores that are not reached. -/
theorem unreached (ran : view.Ran told before stores (.error failure) after)
    (others : List (String × OrderedMap Bytes Mutation)) :
    view.Ran told before (stores ++ others) (.error failure) after := by
  cases ran with
  | stopped front tells tables =>
      rw [List.append_assoc, List.cons_append]
      exact .stopped front tells tables

/-- A store that cannot be opened. -/
theorem unopened (tables : view.tables after = view.tables before)
    (tells : told ⟨name, none⟩ failure) :
    view.Ran told before [(name, rows)] (.error failure) after := by
  have stopped : view.Ran told before ([] ++ (name, rows) :: []) (.error failure) after :=
    .stopped .opening tells tables
  exact stopped

/-- The rows of one store, worked off one by one. -/
theorem of_made (made : view.Made before (StoreCall.batchRows name rows.entries) outcome after)
    (tells : ∀ failure, outcome = .error failure → ∀ key, told ⟨name, some key⟩ failure) :
    view.Ran told before [(name, rows)] outcome after := by
  cases outcome with
  | ok done =>
      refine .all ?_
      rw [made.tables_of_ok, List.flatMap_singleton]
  | error failure =>
      obtain ⟨front, change, rest, changes, tables⟩ := made.tables_of_error
      obtain ⟨written, unwritten, entries, remains, rfl⟩ := StoreCall.rows_of_front changes
      obtain ⟨⟨key, mutation⟩, unmade, rfl⟩ := List.exists_cons_of_ne_nil remains
      have stopped : view.Ran told before ([] ++ (name, rows) :: []) (.error failure) after :=
        .stopped (.writing entries) (tells failure rfl key) tables
      exact stopped

/-- A batch that does not succeed has stopped at one place. -/
theorem exists_stop {pending : StoreMutations}
    (ran : view.Ran told before pending.entries (.error failure) after) :
    ∃ stop, view.Stopped pending stop before after ∧ told stop failure := by
  generalize stores : pending.entries = entries at ran
  cases ran with
  | stopped front tells tables =>
      rename_i earlier later store rows row made
      obtain ⟨unmade, ofStore⟩ := front.split
      have staged : pending.find? store = some rows :=
        OrderedMap.find?_eq_some_iff.2 (stores ▸ List.mem_append_right _ List.mem_cons_self)
      have reached := StoreMutations.row_front stores ofStore (view.tables before)
      rw [← tables] at reached
      refine ⟨⟨store, row⟩, ⟨⟨rows, staged, ?_⟩, ?_, ?_⟩, tells⟩
      · rintro key rfl
        exact front.mem_keys
      · rintro name key (less | ⟨rfl, bound, rfl, less⟩)
        · rw [reached, if_pos (Or.inl less)]
        · rw [reached]
          split
          · rfl
          -- nothing is pending for a row in front of the stop that is not among the written ones
          · rename_i unlisted
            have absent : rows.find? key = none := by
              refine Option.eq_none_iff_forall_ne_some.2 fun mutation found => unlisted ?_
              have listed := OrderedMap.mem_keys.2 (Option.isSome_iff_exists.2 ⟨_, found⟩)
              exact Or.inr ⟨rfl, front.made_of_lt less listed⟩
            rw [mutationOf, staged, Option.bind_some, absent]
            rfl
      · intro name key notPassed
        rw [reached, if_neg]
        rintro (less | ⟨rfl, listed⟩)
        · exact notPassed (Or.inl less)
        · exact notPassed (Or.inr ⟨rfl, front.lt_of_made listed⟩)

end Ran

/-! ### Store by store -/

/-- Turns of other callers that leave the tables as they are. -/
def Quiet (view : StoresView σ) (turn : String → σ → σ) : Prop :=
  ∀ name state, view.tables (turn name state) = view.tables state

end StoresView

variable {σ : Type}

/-- A batch as batches of one store each, with a turn of other callers in front of each. -/
def StoreMutations.inTurns (batch : StoreMutations → Action σ Unit) (turn : String → σ → σ) :
    List (String × OrderedMap Bytes Mutation) → Action σ Unit
  | [] => return ()
  | (name, rows) :: stores => do
    modify (turn name)
    batch (OrderedMap.empty.insert name rows)
    inTurns batch turn stores

/-- A batch that goes from store to store is made of batches of one store each. -/
theorem StoreMutations.inTurns_eq {batch : StoreMutations → Action σ Unit}
    {writeStore : String × OrderedMap Bytes Mutation → Action σ Unit}
    (storeByStore : ∀ mutations, batch mutations = forM mutations.entries writeStore)
    (pending : StoreMutations) :
    inTurns batch (fun _ state => state) pending.entries = batch pending := by
  rw [storeByStore]
  generalize pending.entries = entries
  induction entries with
  | nil => rfl
  | cons store entries inductionHypothesis =>
      have single : batch (OrderedMap.empty.insert store.1 store.2) = writeStore store := by
        rw [storeByStore, show (OrderedMap.empty.insert store.1 store.2).entries = [store] from rfl,
          List.forM_cons, List.forM_nil, bind_pure_unit]
      rw [inTurns, inductionHypothesis, single, List.forM_cons]
      rfl

namespace StoresView

open StoreMutations (inTurns)

/-- A batch that fails stops at one place, alone or with turns of other callers in it. -/
structure StopsAtOne (view : StoresView σ) (told : Stop → StoreError → Prop)
    (batch : StoreMutations → Action σ Unit) : Prop where
  stops : ∀ pending before {failure after}, batch pending before = (.error failure, after) →
    ∃ stop, view.Stopped pending stop before after ∧ told stop failure
  alone : ∀ pending, inTurns batch (fun _ state => state) pending.entries = batch pending
  amid : ∀ turn, view.Quiet turn → ∀ pending before {failure after},
    inTurns batch turn pending.entries before = (.error failure, after) →
      ∃ stop, view.Stopped pending stop before after ∧ told stop failure

variable {view : StoresView σ} {told : Stop → StoreError → Prop}
  {batch : StoreMutations → Action σ Unit}

/-- A batch that stops at one place does so under weaker claims on the failure. -/
theorem StopsAtOne.mono {other : Stop → StoreError → Prop} (stopsAtOne : view.StopsAtOne told batch)
    (weaker : ∀ stop failure, told stop failure → other stop failure) :
    view.StopsAtOne other batch where
  stops pending before _ _ failed := by
    obtain ⟨stop, stopped, tells⟩ := stopsAtOne.stops pending before failed
    exact ⟨stop, stopped, weaker stop _ tells⟩
  alone := stopsAtOne.alone
  amid turn quiet pending before _ _ failed := by
    obtain ⟨stop, stopped, tells⟩ := stopsAtOne.amid turn quiet pending before failed
    exact ⟨stop, stopped, weaker stop _ tells⟩

theorem ran_inTurns (step : ∀ name rows state, ∃ outcome after,
      batch (OrderedMap.empty.insert name rows) state = (outcome, after) ∧
        view.Ran told state [(name, rows)] outcome after)
    {turn : String → σ → σ} (quiet : view.Quiet turn)
    (stores : List (String × OrderedMap Bytes Mutation)) (state : σ) :
    ∃ outcome after, inTurns batch turn stores state = (outcome, after) ∧
      view.Ran told state stores outcome after := by
  induction stores generalizing state with
  | nil => exact ⟨_, state, rfl, .all rfl⟩
  | cons store stores inductionHypothesis =>
      obtain ⟨outcome, middle, written, first⟩ := step store.1 store.2 (turn store.1 state)
      have first := first.congr (quiet store.1 state)
      have turned : inTurns batch turn (store :: stores) state =
          (batch (OrderedMap.empty.insert store.1 store.2) >>= fun _ =>
            inTurns batch turn stores) (turn store.1 state) :=
        Action.bind_of_ok (Action.modify_apply _ _)
      rw [turned]
      cases outcome with
      | error failure => exact ⟨_, middle, Action.bind_of_error written, first.unreached stores⟩
      | ok done =>
          obtain ⟨outcome, after, others, ran⟩ := inductionHypothesis middle
          exact ⟨outcome, after, (Action.bind_of_ok written).trans others, first.behind ran⟩

/-- It is enough to know what a batch of one store comes to. -/
theorem stopsAtOne_of_steps
    (alone : ∀ pending, inTurns batch (fun _ state => state) pending.entries = batch pending)
    (step : ∀ name rows state, ∃ outcome after,
      batch (OrderedMap.empty.insert name rows) state = (outcome, after) ∧
        view.Ran told state [(name, rows)] outcome after) : view.StopsAtOne told batch := by
  have amid : ∀ turn, view.Quiet turn → ∀ pending before {failure after},
      inTurns batch turn pending.entries before = (.error failure, after) →
        ∃ stop, view.Stopped pending stop before after ∧ told stop failure := by
    intro turn quiet pending before failure after failed
    obtain ⟨outcome, left, ran, written⟩ := ran_inTurns step quiet pending.entries before
    obtain ⟨rfl, rfl⟩ := Prod.mk.inj (failed.symm.trans ran)
    exact written.exists_stop
  refine ⟨fun pending before _ _ failed => ?_, alone, amid⟩
  rw [← alone] at failed
  exact amid _ (fun _ _ => rfl) pending before failed

end StoresView

/-! ### The batch that goes row by row -/

/-- A manager whose stores are tables. It may refuse any opening and any row, with any failure. -/
structure RowStores (manager : Manager σ) extends StoresView σ where
  named : ∀ state name, (refer state name).name = name
  opens : ∀ state name, ∃ outcome after, manager.openStore name state = (outcome, after) ∧
    tables after = tables state ∧ refer after = refer state ∧
    ∀ store, outcome = .ok store → store = refer state name
  mutates : ∀ state (change : RowChange), toStoresView.Works (fun _ => True)
    (manager.mutate (refer state change.store) change.key change.additions change.deletions) state
    [change]

/-- Such are the managers whose failures name no other store. -/
def FallibleManager.rowStores {manager : Manager σ} (fallible : FallibleManager manager)
    (named : ∀ state name, (fallible.refer state name).name = name) : RowStores manager where
  toStoresView := fallible.toStoresView
  named := named
  opens state name := by
    obtain ⟨outcome, after, opened, tables, refer, ofStore, -⟩ := fallible.opens state name
    exact ⟨outcome, after, opened, tables, refer, ofStore⟩
  mutates := fallible.mutates

namespace RowStores

variable {manager : Manager σ} (stores : RowStores manager)

/-- The failure names the store, or it is what opening the store has answered. -/
def Tells (manager : Manager σ) (stop : Stop) (failure : StoreError) : Prop :=
  match stop.row with
  | some _ => failure.NamesStop stop
  | none => ∃ state, (manager.openStore stop.store state).1 = .error failure

theorem mutateEach_eq_forM (manager : Manager σ) (mutations : StoreMutations) :
    manager.mutateEach mutations = forM mutations.entries fun store =>
      manager.openStore store.1 >>= fun opened => manager.writeRows opened store.2.entries := by
  rw [Manager.mutateEach]
  induction mutations.entries with
  | nil => rfl
  | cons store entries inductionHypothesis =>
      rw [Manager.writeStores, List.forM_cons, bind_assoc, inductionHypothesis]

theorem ran_mutateEach (name : String) (rows : OrderedMap Bytes Mutation) (state : σ) :
    ∃ outcome after, manager.mutateEach (OrderedMap.empty.insert name rows) state =
      (outcome, after) ∧ stores.Ran (Tells manager) state [(name, rows)] outcome after := by
  obtain ⟨outcome, middle, opened, tables, refer, ofStore⟩ := stores.opens state name
  cases outcome with
  | error failure =>
      refine ⟨_, middle, Action.bind_of_error opened, .unopened tables ⟨state, ?_⟩⟩
      rw [opened]
  | ok store =>
      obtain rfl := ofStore store rfl
      obtain ⟨outcome, after, written, made, names⟩ :=
        stores.works_mutateEach_of_opened stores.mutates (stores.named state name) opened tables
          refer rows
      exact ⟨outcome, after, written, .of_made made fun failure same _ => names failure same⟩

theorem stopsAtOne : stores.StopsAtOne (Tells manager) manager.mutateEach :=
  stores.stopsAtOne_of_steps (StoreMutations.inTurns_eq (mutateEach_eq_forM manager))
    stores.ran_mutateEach

def NamesOpenings (manager : Manager σ) : Prop :=
  ∀ state name failure, (manager.openStore name state).1 = .error failure → failure.Names name

/-- A batch of one store, without rows, shows whether the opening is named. -/
theorem namesOpenings_of_stopsAtOne
    (named : stores.StopsAtOne StoreError.NamesStop manager.mutateEach) :
    NamesOpenings manager := by
  intro state name failure failed
  rcases opened : manager.openStore name state with ⟨outcome, after⟩
  obtain rfl : outcome = .error failure := (congrArg Prod.fst opened).symm.trans failed
  obtain ⟨stop, stopped, names⟩ := named.stops (OrderedMap.empty.insert name .empty) state
    (Action.bind_of_error opened)
  obtain ⟨rows, staged, -⟩ := stopped.staged
  by_cases same : stop.store = name
  · rwa [← same]
  · rw [OrderedMap.find?_insert, if_neg same] at staged
    exact nomatch staged

theorem stopsAtOne_names_iff :
    stores.StopsAtOne StoreError.NamesStop manager.mutateEach ↔ NamesOpenings manager := by
  refine ⟨stores.namesOpenings_of_stopsAtOne, fun named => stores.stopsAtOne.mono ?_⟩
  rintro ⟨store, _ | row⟩ failure tells
  · obtain ⟨state, failed⟩ := tells
    exact named state store failure failed
  · exact tells

end RowStores

/-! ### The batches of both backends -/

/-- A guarded manager names the store that its batch stops in, also where it has been closed. -/
theorem GuardedManager.stopsAtOne {manager : Manager σ} {guarded : GuardedManager manager}
    (worksStores : guarded.WorksStores) :
    guarded.storesView.StopsAtOne StoreError.NamesStop manager.mutateMany := by
  refine StoresView.stopsAtOne_of_steps (StoreMutations.inTurns_eq guarded.batches) ?_
  intro name rows state
  cases closed : guarded.closed state with
  | false =>
      obtain ⟨outcome, after, written, made, names⟩ := worksStores name rows state closed
      exact ⟨outcome, after, written, .of_made made fun failure same _ => names failure same⟩
  | true => exact ⟨_, _, guarded.mutateMany_of_closed closed name rows, .unopened rfl ⟨_, rfl⟩⟩

/-- A batch that fails stops at one place: the rows in front of it are written, in the order of the
stores and of the keys, and no others. Both backends name the store that the batch stops in, also
where they are closed in the midst of it. The batch that goes row by row does so where a row is not
written, but the failure of an opening it answers as it is: it names the store in every case exactly
if the openings do. -/
theorem batches_stop {manager : Manager σ} (stores : RowStores manager) :
    stores.StopsAtOne (RowStores.Tells manager) manager.mutateEach ∧
    (stores.StopsAtOne StoreError.NamesStop manager.mutateEach ↔
      RowStores.NamesOpenings manager) ∧
    Memory.storesView.StopsAtOne StoreError.NamesStop Memory.manager.mutateMany ∧
    Embedded.storesView.StopsAtOne StoreError.NamesStop Embedded.manager.mutateMany :=
  ⟨stores.stopsAtOne, stores.stopsAtOne_names_iff,
    GuardedManager.stopsAtOne Memory.worksStores, GuardedManager.stopsAtOne Embedded.worksStores⟩

/-! ### Three stores -/

/-- The backend in memory, of whose openings and writes some fail. -/
def interruptedStores : RowStores Memory.manager.interrupted :=
  Memory.fallible.interrupted.rowStores fun _ _ => rfl

/-- The store `t` is not opened. -/
def seventhCallFails : List (Option String) × Memory :=
  ([none, none, none, none, none, none, some "connection refused"], .empty)

open Transaction (threeStores fifthCallFails thirdWriteFails)

/-- Row by row, in memory with a close in front of the store `s`, and with a log. -/
theorem batches_stop_threeStores :
    (∃ after stop, Memory.manager.interrupted.mutateEach threeStores.pending fifthCallFails =
        (.error (.persistence "s" (.temporary "disk full")), after) ∧
      interruptedStores.Stopped threeStores.pending stop fifthCallFails after) ∧
    (∃ after stop, StoreMutations.inTurns Memory.manager.mutateMany
        (fun name memory => { memory with closed := name = "s" }) threeStores.pending.entries
          .empty = (.error (.persistence "s" (.closed .memoryManager)), after) ∧
      Memory.storesView.Stopped threeStores.pending stop .empty after ∧ stop.store = "s") ∧
    ∃ failure after stop, Embedded.manager.mutateMany threeStores.pending thirdWriteFails =
        (.error failure, after) ∧
      Embedded.storesView.Stopped threeStores.pending stop thirdWriteFails after ∧
      failure.NamesStop stop := by
  obtain ⟨rowByRow, -, inMemory, withLog⟩ := batches_stop interruptedStores
  refine ⟨?_, ?_, ?_⟩
  · obtain ⟨stop, stopped, -⟩ := rowByRow.stops threeStores.pending fifthCallFails rfl
    exact ⟨_, stop, rfl, stopped⟩
  · obtain ⟨stop, stopped, source, same⟩ := inMemory.amid
      (fun name memory => { memory with closed := name = "s" }) (fun _ _ => rfl)
      threeStores.pending .empty rfl
    exact ⟨_, stop, rfl, stopped, (StoreError.persistence.inj same).1.symm⟩
  · have failed : (Embedded.manager.mutateMany threeStores.pending thirdWriteFails).1.isOk =
        false := by
      decide +kernel
    rcases ran : Embedded.manager.mutateMany threeStores.pending thirdWriteFails with
      ⟨failure | done, after⟩
    · obtain ⟨stop, stopped, names⟩ := withLog.stops _ _ ran
      exact ⟨failure, after, stop, rfl, stopped, names⟩
    · rw [ran] at failed
      exact nomatch failed

/-- The failure of an opening names no store, so that the batch does not name the one it stops in.
-/
theorem mutateEach_unopened_unnamed :
    ∃ after, Memory.manager.interrupted.mutateEach threeStores.pending seventhCallFails =
        (.error (.temporary "connection refused"), after) ∧
      ¬ ∃ stop, interruptedStores.Stopped threeStores.pending stop seventhCallFails after ∧
        StoreError.NamesStop stop (.temporary "connection refused") := by
  refine ⟨_, rfl, ?_⟩
  rintro ⟨stop, -, source, same⟩
  exact nomatch same

end GraphStore
