import GraphStore.Proofs.Manager.Tabular

/-!
Contract: managers whose writes may fail at any point.

Owns the laws of a manager that may refuse any call and never leaves a row half written
(`FallibleManager`), and what it means that an operation works off row changes and stops in front of
one of them (`StoresView.Works`). Rows that are written one by one are worked off so. Both backends
obey the laws, with their own batch change or with one that goes row by row, and go on obeying them
when failures are injected at any of their calls (`Manager.interrupted`).
-/

namespace GraphStore

/-- What shows of the states of a manager whose stores are tables. -/
structure StoresView (σ : Type) where
  tables : σ → Tables
  refer : σ → String → StoreRef

def StoreError.Names (store : String) (failure : StoreError) : Prop :=
  ∃ source, failure = .persistence store source

/-- A failure that names no other store. -/
def StoreError.NamesNoOther (store : String) (failure : StoreError) : Prop :=
  ∀ other source, failure = .persistence other source → other = store

/-- A success is no failure to tell of. -/
theorem StoreError.told_of_ok {told : StoreError → Prop} (failure : StoreError)
    (same : (.ok () : Result Unit) = .error failure) : told failure := by
  cases same

theorem StoreError.namesNoOther_of_names {store : String} {failure : StoreError}
    (names : failure.Names store) : failure.NamesNoOther store := by
  obtain ⟨source, rfl⟩ := names
  intro other cause same
  exact (StoreError.persistence.inj same).1.symm

/-- A front of the row changes of a store is that of a front of its rows. -/
theorem StoreCall.rows_of_front {name : String} {rows : List (Bytes × Mutation)}
    {front rest : List RowChange} {change : RowChange}
    (changes : batchRows name rows = front ++ change :: rest) :
    ∃ made unmade, rows = made ++ unmade ∧ unmade ≠ [] ∧ front = batchRows name made := by
  obtain ⟨made, unmade, split, ofMade, ofUnmade⟩ := List.map_eq_append_iff.1 changes
  refine ⟨made, unmade, split, ?_, ofMade.symm⟩
  rintro rfl
  exact nomatch ofUnmade

theorem StoreCall.batchRows_ne_nil {name : String} {rows : List (Bytes × Mutation)}
    (filled : rows ≠ []) : batchRows name rows ≠ [] :=
  fun none => filled (List.map_eq_nil_iff.1 none)

namespace StoresView

variable {σ : Type}

/-- What working off row changes comes to: all of them are made, or those in front of one that is
not. References stay good. -/
inductive Made (view : StoresView σ) (before : σ) : List RowChange → Result Unit → σ → Prop where
  | all {plan : List RowChange} {after : σ}
      (tables : view.tables after = Log.applyAll plan (view.tables before))
      (refer : view.refer after = view.refer before) : Made view before plan (.ok ()) after
  | stopped {made rest : List RowChange} {change : RowChange} {failure : StoreError} {after : σ}
      (tables : view.tables after = Log.applyAll made (view.tables before))
      (refer : view.refer after = view.refer before) :
      Made view before (made ++ change :: rest) (.error failure) after

/-- The operation works off the row changes, and a failure of it is as told. -/
def Works (view : StoresView σ) (told : StoreError → Prop) (action : Action σ Unit) (before : σ)
    (plan : List RowChange) : Prop :=
  ∃ outcome after, action before = (outcome, after) ∧ view.Made before plan outcome after ∧
    ∀ failure, outcome = .error failure → told failure

variable {view : StoresView σ} {before : σ}

namespace Made

theorem refer_eq {plan : List RowChange} {outcome : Result Unit} {after : σ}
    (made : view.Made before plan outcome after) : view.refer after = view.refer before := by
  cases made with
  | all tables refer => exact refer
  | stopped tables refer => exact refer

/-- Behind a success the whole plan is made. -/
theorem tables_of_ok {plan : List RowChange} {after : σ}
    (made : view.Made before plan (.ok ()) after) :
    view.tables after = Log.applyAll plan (view.tables before) := by
  cases made with
  | all tables refer => exact tables

/-- Behind a failure the plan is made up to a change that is not. -/
theorem tables_of_error {plan : List RowChange} {failure : StoreError} {after : σ}
    (made : view.Made before plan (.error failure) after) :
    ∃ front change rest, plan = front ++ change :: rest ∧
      view.tables after = Log.applyAll front (view.tables before) := by
  cases made with
  | stopped tables refer => exact ⟨_, _, _, rfl, tables⟩

/-- Row changes behind others that have been made. -/
theorem behind {front back : List RowChange} {outcome : Result Unit} {middle after : σ}
    (first : view.Made before front (.ok ()) middle)
    (second : view.Made middle back outcome after) :
    view.Made before (front ++ back) outcome after := by
  cases first with
  | all tables refer =>
      cases second with
      | all tablesNext referNext =>
          refine .all ?_ (referNext.trans refer)
          rw [tablesNext, tables, Log.applyAll_append]
      | stopped tablesNext referNext =>
          rw [← List.append_assoc]
          refine .stopped ?_ (referNext.trans refer)
          rw [tablesNext, tables, Log.applyAll_append]

/-- Row changes in front of others that are not reached. -/
theorem unreached {front : List RowChange} {failure : StoreError} {after : σ}
    (made : view.Made before front (.error failure) after) (back : List RowChange)
    (other : StoreError) :
    view.Made before (front ++ back) (.error other) after := by
  cases made with
  | stopped tables refer =>
      rw [List.append_assoc, List.cons_append]
      exact .stopped tables refer

end Made

namespace Works

variable {told : StoreError → Prop} {action next : Action σ Unit} {front back plan : List RowChange}

theorem nothing (told : StoreError → Prop) (before : σ) :
    view.Works told (return ()) before [] :=
  ⟨_, before, rfl, .all rfl rfl, StoreError.told_of_ok⟩

/-- An operation that fails before it does anything. -/
theorem refused {failure : StoreError} {after : σ}
    (failed : action before = (.error failure, after))
    (tables : view.tables after = view.tables before)
    (refer : view.refer after = view.refer before)
    (tells : told failure) (filled : plan ≠ []) : view.Works told action before plan := by
  cases plan with
  | nil => exact absurd rfl filled
  | cons change plan =>
      have made : view.Made before ([] ++ change :: plan) (.error failure) after :=
        .stopped tables refer
      refine ⟨_, after, failed, made, fun other same => ?_⟩
      rw [← Except.error.inj same]
      exact tells

/-- Renaming the failures leaves the work as it is. -/
theorem mapError (works : view.Works told action before plan)
    {renamed : StoreError → Prop} (rename : StoreError → StoreError)
    (tells : ∀ failure, told failure → renamed (rename failure)) :
    view.Works renamed (action.mapError rename) before plan := by
  obtain ⟨outcome, after, ran, made, tellsOf⟩ := works
  cases outcome with
  | ok done => exact ⟨_, after, Action.mapError_of_ok ran, made, StoreError.told_of_ok⟩
  | error failure =>
      have named := made.unreached [] (rename failure)
      rw [List.append_nil] at named
      refine ⟨_, after, Action.mapError_of_error ran, named, fun other same => ?_⟩
      rw [← Except.error.inj same]
      exact tells failure (tellsOf failure rfl)

theorem weaken (works : view.Works told action before plan) {other : StoreError → Prop}
    (weaker : ∀ failure, told failure → other failure) : view.Works other action before plan := by
  obtain ⟨outcome, after, ran, made, tellsOf⟩ := works
  exact ⟨outcome, after, ran, made, fun failure same => weaker failure (tellsOf failure same)⟩

/-- What comes behind a step that leaves the tables alone. -/
theorem behind_step {middle : σ} (ran : action before = next middle)
    (tables : view.tables middle = view.tables before)
    (refer : view.refer middle = view.refer before)
    (works : view.Works told next middle plan) : view.Works told action before plan := by
  obtain ⟨outcome, after, ranNext, made, tellsOf⟩ := works
  have step : view.Made before [] (.ok ()) middle := .all tables refer
  exact ⟨outcome, after, ran.trans ranNext, step.behind made, tellsOf⟩

/-- Two operations in a row work off one list of row changes and then another. -/
theorem andThen (first : view.Works told action before front)
    (second : ∀ after, view.refer after = view.refer before → view.Works told next after back) :
    view.Works told (action >>= fun _ => next) before (front ++ back) := by
  obtain ⟨outcome, middle, ran, made, tellsOf⟩ := first
  cases outcome with
  | error failure =>
      exact ⟨_, middle, Action.bind_of_error ran, made.unreached back failure, tellsOf⟩
  | ok done =>
      obtain ⟨outcome, after, ranNext, madeNext, toldNext⟩ := second middle made.refer_eq
      exact ⟨outcome, after, (Action.bind_of_ok ran).trans ranNext, made.behind madeNext, toldNext⟩

end Works

end StoresView

/-- Rows of a store are worked off one by one where every row is written or not. -/
theorem StoresView.works_writeEach {σ : Type} {manager : Manager σ} (view : StoresView σ)
    (mutates : ∀ state (change : RowChange), view.Works (fun _ => True)
      (manager.mutate (view.refer state change.store) change.key change.additions change.deletions)
      state [change])
    (name : String) (rows : List (Bytes × Mutation)) (state : σ) :
    view.Works (StoreError.Names name)
      (manager.writeEach (.persistence name) (view.refer state name) rows) state
      (StoreCall.batchRows name rows) := by
  induction rows generalizing state with
  | nil => exact .nothing _ state
  | cons row rows inductionHypothesis =>
      have written := mutates state ⟨name, row.1, row.2.addedEntries, row.2.deletedColumns⟩
      refine (written.mapError (.persistence name) fun failure _ => ⟨failure, rfl⟩).andThen
        fun after refer => ?_
      rw [← refer]
      exact inductionHypothesis after

/-- A batch of one store that goes row by row, once the store is opened. -/
theorem StoresView.works_mutateEach_of_opened {σ : Type} {manager : Manager σ} (view : StoresView σ)
    (mutates : ∀ state (change : RowChange), view.Works (fun _ => True)
      (manager.mutate (view.refer state change.store) change.key change.additions change.deletions)
      state [change])
    {name : String} {state middle : σ} (named : (view.refer state name).name = name)
    (opened : manager.openStore name state = (.ok (view.refer state name), middle))
    (tables : view.tables middle = view.tables state) (refer : view.refer middle = view.refer state)
    (rows : OrderedMap Bytes Mutation) :
    view.Works (StoreError.Names name) (manager.mutateEach (OrderedMap.empty.insert name rows))
      state (StoreCall.batchRows name rows.entries) := by
  refine .behind_step (Action.bind_of_ok opened) tables refer ?_
  have written := view.works_writeEach mutates name rows.entries middle
  rw [refer] at written
  rw [Manager.writeRows_eq_writeEach, named, ← List.append_nil (StoreCall.batchRows _ _)]
  exact written.andThen fun final _ => .nothing _ final

/-- A manager that may fail at any call. A row change is made or not, a batch of rows of one store
is worked off from the first row on, and no failure names a store that is not written. -/
structure FallibleManager {σ : Type} (manager : Manager σ) extends StoresView σ where
  opens : ∀ state name, ∃ outcome after, manager.openStore name state = (outcome, after) ∧
    tables after = tables state ∧ refer after = refer state ∧
    (∀ store, outcome = .ok store → store = refer state name) ∧
    ∀ failure, outcome = .error failure → failure.NamesNoOther name
  mutates : ∀ state (change : RowChange), toStoresView.Works (fun _ => True)
    (manager.mutate (refer state change.store) change.key change.additions change.deletions) state
    [change]
  mutatesMany : ∀ state name (rows : OrderedMap Bytes Mutation), rows.entries ≠ [] →
    toStoresView.Works (StoreError.NamesNoOther name)
      (manager.mutateMany (OrderedMap.empty.insert name rows)) state
      (StoreCall.batchRows name rows.entries)

namespace FallibleManager

variable {σ : Type} {manager : Manager σ} (fallible : FallibleManager manager)

/-- Rows that are written one by one. -/
theorem works_writeEach (name : String) (rows : List (Bytes × Mutation)) (state : σ) :
    fallible.Works (StoreError.Names name)
      (manager.writeEach (.persistence name) (fallible.refer state name) rows) state
      (StoreCall.batchRows name rows) :=
  fallible.toStoresView.works_writeEach fallible.mutates name rows state

/-- A batch of one store that goes row by row. -/
theorem works_mutateEach (named : ∀ state name, (fallible.refer state name).name = name)
    (name : String) {rows : OrderedMap Bytes Mutation} (filled : rows.entries ≠ []) (state : σ) :
    fallible.Works (StoreError.NamesNoOther name)
      (manager.mutateEach (OrderedMap.empty.insert name rows)) state
      (StoreCall.batchRows name rows.entries) := by
  obtain ⟨outcome, after, opened, tables, refer, ofStore, names⟩ := fallible.opens state name
  cases outcome with
  | error failure =>
      exact .refused (Action.bind_of_error opened) tables refer (names failure rfl)
        (StoreCall.batchRows_ne_nil filled)
  | ok store =>
      obtain rfl := ofStore store rfl
      exact (fallible.works_mutateEach_of_opened fallible.mutates (named state name) opened tables
        refer rows).weaken fun _ => StoreError.namesNoOther_of_names

/-- The laws do not depend on what the manager claims about batches, nor on whether a batch goes
through its own batch change or row by row. -/
def configured (named : ∀ state name, (fallible.refer state name).name = name)
    (batching rowByRow : Bool) : FallibleManager (manager.configured batching rowByRow) where
  toStoresView := fallible.toStoresView
  opens := fallible.opens
  mutates := fallible.mutates
  mutatesMany state name rows filled := by
    cases rowByRow with
    | false => exact fallible.mutatesMany state name rows filled
    | true => exact fallible.works_mutateEach named name filled state

end FallibleManager

/-! ### Injected failures -/

/-- The operation, or a failure in its place when a script tells so; behind the script it goes
through. -/
def Action.interruptible {σ α : Type} (action : Action σ α) :
    Action (List (Option String) × σ) α := Action.of fun world =>
  match world.1 with
  | some text :: script => (.error (.temporary text), (script, world.2))
  | none :: script => ((action world.2).1, (script, (action world.2).2))
  | [] => ((action world.2).1, ([], (action world.2).2))

/-- The manager whose openings and writes, whole batches among them, fail as a script tells. -/
def Manager.interrupted {σ : Type} (manager : Manager σ) : Manager (List (Option String) × σ) :=
  { manager.within Prod.snd (fun world after => (world.1, after)) with
    openStore := fun name => (manager.openStore name).interruptible
    mutate := fun store key additions deletions =>
      (manager.mutate store key additions deletions).interruptible
    mutateMany := fun mutations => (manager.mutateMany mutations).interruptible }

/-- An interruptible operation runs as it is, or fails as its script says and does nothing. -/
theorem Action.interruptible_cases {σ α : Type} (action : Action σ α)
    (world : List (Option String) × σ) :
    ∃ script, action.interruptible world = ((action world.2).1, (script, (action world.2).2)) ∨
      ∃ text, action.interruptible world = (.error (.temporary text), (script, world.2)) := by
  obtain ⟨_ | ⟨_ | text, script⟩, state⟩ := world
  · exact ⟨[], Or.inl rfl⟩
  · exact ⟨script, Or.inl rfl⟩
  · exact ⟨script, Or.inr ⟨text, rfl⟩⟩

namespace StoresView

variable {σ : Type} {view : StoresView σ}

def scripted (view : StoresView σ) : StoresView (List (Option String) × σ) where
  tables world := view.tables world.2
  refer world := view.refer world.2

theorem Made.scripted {before after : σ} {plan : List RowChange} {outcome : Result Unit}
    (made : view.Made before plan outcome after) (earlier later : List (Option String)) :
    view.scripted.Made (earlier, before) plan outcome (later, after) := by
  cases made with
  | all tables refer => exact .all tables refer
  | stopped tables refer => exact .stopped tables refer

theorem Works.interruptible {told : StoreError → Prop} {action : Action σ Unit}
    {world : List (Option String) × σ} {plan : List RowChange}
    (works : view.Works told action world.2 plan) (tells : ∀ text, told (.temporary text))
    (filled : plan ≠ []) : view.scripted.Works told action.interruptible world plan := by
  obtain ⟨outcome, after, ran, made, tellsOf⟩ := works
  obtain ⟨script, through | ⟨text, failed⟩⟩ := action.interruptible_cases world
  · rw [ran] at through
    exact ⟨outcome, _, through, made.scripted world.1 script, tellsOf⟩
  · exact .refused failed rfl rfl (tells text) filled

end StoresView

/-- Injected failures keep the laws. -/
def FallibleManager.interrupted {σ : Type} {manager : Manager σ}
    (fallible : FallibleManager manager) : FallibleManager manager.interrupted where
  toStoresView := fallible.toStoresView.scripted
  opens world name := by
    obtain ⟨outcome, after, opened, tables, refer, ofStore, names⟩ := fallible.opens world.2 name
    obtain ⟨script, through | ⟨text, failed⟩⟩ :=
      (manager.openStore name).interruptible_cases world
    · rw [opened] at through
      exact ⟨outcome, _, through, tables, refer, ofStore, names⟩
    · refine ⟨_, _, failed, rfl, rfl, nofun, ?_⟩
      rintro failure same other source rfl
      cases same
  mutates world change :=
    (fallible.mutates world.2 change).interruptible (fun _ => trivial) (List.cons_ne_nil _ _)
  mutatesMany world name rows filled :=
    (fallible.mutatesMany world.2 name rows filled).interruptible (fun _ => nofun)
      (StoreCall.batchRows_ne_nil filled)

/-! ### Guarded managers -/

namespace GuardedManager

variable {σ : Type} {manager : Manager σ} (guarded : GuardedManager manager)

def storesView : StoresView σ where
  tables state := (guarded.stores state).current
  refer state := (guarded.stores state).refer

theorem works_write (state : σ) (change : RowChange) :
    guarded.storesView.Works (fun _ => True)
      (guarded.write ((guarded.stores state).refer change.store) change.key change.additions
        change.deletions) state [change] := by
  have writes := guarded.writes ((guarded.stores state).refer change.store) change.key
    change.additions change.deletions
  rcases written : guarded.write ((guarded.stores state).refer change.store) change.key
    change.additions change.deletions state with ⟨failure | done, after⟩
  · have stores := writes.unmade written
    exact .refused written (congrArg Generations.current stores) (congrArg Generations.refer stores)
      trivial (List.cons_ne_nil _ _)
  · have stores := writes.made written
    rw [Generations.change_refer] at stores
    exact ⟨_, after, written, .all (congrArg Generations.current stores)
      ((congrArg Generations.refer stores).trans rfl), StoreError.told_of_ok⟩

theorem works_mutate (state : σ) (change : RowChange) :
    guarded.storesView.Works (fun _ => True)
      (manager.mutate ((guarded.stores state).refer change.store) change.key change.additions
        change.deletions) state [change] := by
  cases closed : guarded.closed state with
  | false =>
      exact .behind_step (guarded.mutate_of_open closed _ _ _ _) rfl rfl
        (guarded.works_write state change)
  | true =>
      exact .refused ((guarded.refuses closed).mutates _ _ _ _) rfl rfl trivial
        (List.cons_ne_nil _ _)

/-- While the manager is open, a batch of one store works off its rows, and a failure names the
store. -/
def WorksStores : Prop :=
  ∀ name (rows : OrderedMap Bytes Mutation) state, guarded.closed state = false →
    guarded.storesView.Works (StoreError.Names name)
      (manager.mutateMany (OrderedMap.empty.insert name rows)) state
      (StoreCall.batchRows name rows.entries)

variable {guarded}

/-- A guarded manager never leaves a row half written, and its failures name no other store. -/
def fallible (worksStores : guarded.WorksStores) : FallibleManager manager where
  toStoresView := guarded.storesView
  opens state name := by
    cases closed : guarded.closed state with
    | false =>
        exact ⟨_, _, guarded.openStore_of_open closed name, rfl, rfl,
          fun _ same => (Except.ok.inj same).symm, nofun⟩
    | true =>
        refine ⟨_, _, (guarded.refuses closed).opens name, rfl, rfl, nofun, ?_⟩
        rintro failure same other source rfl
        cases same
  mutates := guarded.works_mutate
  mutatesMany state name rows filled := by
    cases closed : guarded.closed state with
    | false =>
        exact (worksStores name rows state closed).weaken fun _ =>
          StoreError.namesNoOther_of_names
    | true =>
        exact .refused (guarded.mutateMany_of_closed closed name rows) rfl rfl
          (StoreError.namesNoOther_of_names ⟨_, rfl⟩) (StoreCall.batchRows_ne_nil filled)

end GuardedManager

/-! ### Both backends -/

namespace Memory

theorem worksStores : guarded.WorksStores := by
  intro name rows memory closed
  have written := mutateStores_of_open [(name, rows)] closed
  rw [List.flatMap_singleton] at written
  exact ⟨_, _, written, .all rfl rfl, StoreError.told_of_ok⟩

def storesView : StoresView Memory := guarded.storesView

def fallible : FallibleManager manager := GuardedManager.fallible worksStores

end Memory

namespace Embedded

/-- What shows of the backend with the log. -/
def storesView : StoresView Embedded := guarded.storesView

theorem works_writeRows (name : String) (rows : List (Bytes × Mutation)) (embedded : Embedded) :
    storesView.Works (fun _ => True) (writeRows (embedded.stores.refer name) rows) embedded
      (StoreCall.batchRows name rows) := by
  induction rows generalizing embedded with
  | nil => exact .nothing _ embedded
  | cons row rows inductionHypothesis =>
      refine (guarded.works_write embedded
        ⟨name, row.1, row.2.addedEntries, row.2.deletedColumns⟩).andThen fun after refer => ?_
      rw [← show after.stores.refer = embedded.stores.refer from refer]
      exact inductionHypothesis after

theorem worksStores : guarded.WorksStores := by
  intro name rows embedded closed
  have written : storesView.Works (fun _ => True)
      (openStore name >>= fun store => writeRows store rows.entries) embedded
      (StoreCall.batchRows name rows.entries) :=
    .behind_step (Action.bind_of_ok (guarded.openStore_of_open closed name)) rfl rfl
      (works_writeRows name rows.entries embedded)
  rw [← List.append_nil (StoreCall.batchRows name rows.entries)]
  exact (written.mapError (.persistence name) fun failure _ => ⟨failure, rfl⟩).andThen
    fun after _ => .nothing _ after

def fallible : FallibleManager manager := GuardedManager.fallible worksStores

end Embedded

end GraphStore
