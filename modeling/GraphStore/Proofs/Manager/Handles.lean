import GraphStore.Proofs.Ids.Store

/-!
Contract: handles that are kept, and what shows behind them.

Owns calls through handles that were opened at any earlier time (`HandleCall`), runs of such calls
(`HandleRun`), and the rows behind a handle as a function of the calls that were acknowledged
(`StoreRef.rows`). In either backend these are the rows that reads show (`HandleRun.table_eq`): the
writes through handles that were opened between the same two emptyings, behind the second of them
if it has come.
-/

namespace GraphStore

/-! ### Tables of generations -/

theorem StoreRef.eq_iff {left right : StoreRef} :
    left = right ↔ left.name = right.name ∧ left.generation = right.generation := by
  cases left
  cases right
  rw [StoreRef.mk.injEq]

namespace Generations

variable (generations : Generations)

theorem tablesOf_change {store : StoreRef} {generation : Nat}
    (issued : store.generation ≤ generations.number) (present : generation ≤ generations.number)
    (key : Bytes) (additions : List Entry) (deletions : List Bytes) :
    (generations.change store key additions deletions).tablesOf generation =
      if generation = store.generation then
        Tables.change (generations.tablesOf generation) store.name key additions deletions
      else generations.tablesOf generation := by
  rw [number] at issued present
  unfold change number
  by_cases same : generation = store.generation
  · subst same
    rw [if_pos rfl]
    split
    · rename_i past
      rw [tablesOf, List.getElem?_set_self past]
      rfl
    · rename_i current
      rw [tablesOf, List.getElem?_eq_none (Nat.not_lt.1 current)]
      rfl
  · rw [if_neg same]
    split
    · rw [tablesOf, List.getElem?_set_ne (Ne.symm same)]
      rfl
    · have past : generation < generations.earlier.length := by omega
      unfold tablesOf
      dsimp only
      rw [List.getElem?_eq_getElem past]
      rfl

theorem number_change (store : StoreRef) (key : Bytes) (additions : List Entry)
    (deletions : List Bytes) :
    (generations.change store key additions deletions).number = generations.number := by
  unfold change
  dsimp only
  split
  · exact List.length_set
  · rfl

/-- A write through a handle shows through the handles of its store and generation. -/
theorem table_change {store other : StoreRef} (issued : store.generation ≤ generations.number)
    (present : other.generation ≤ generations.number) (key : Bytes) (additions : List Entry)
    (deletions : List Bytes) :
    (generations.change store key additions deletions).table other =
      if store = other then Table.change (generations.table other) key additions deletions
      else generations.table other := by
  rw [table, table, tablesOf_change generations issued present]
  by_cases sameGeneration : other.generation = store.generation
  · rw [if_pos sameGeneration, Tables.table_change]
    by_cases sameName : other.name = store.name
    · have same : store = other := StoreRef.eq_iff.2 ⟨sameName.symm, sameGeneration.symm⟩
      rw [if_pos sameName, if_pos same, same]
    · rw [if_neg sameName, if_neg fun same => sameName (congrArg StoreRef.name same.symm)]
  · rw [if_neg sameGeneration,
      if_neg fun same => sameGeneration (congrArg StoreRef.generation same.symm)]

theorem current_change_of_past {store : StoreRef} (past : store.generation < generations.number)
    (key : Bytes) (additions : List Entry) (deletions : List Bytes) :
    (generations.change store key additions deletions).current = generations.current := by
  rw [change, if_pos past]

theorem current_change_of_present {store : StoreRef}
    (present : store.generation = generations.number) (key : Bytes) (additions : List Entry)
    (deletions : List Bytes) :
    (generations.change store key additions deletions).current =
      Tables.change generations.current store.name key additions deletions := by
  rw [change, if_neg (Nat.not_lt.2 (Nat.le_of_eq present.symm))]
  dsimp only
  rw [present, tablesOf_number]

theorem number_clear : generations.clear.number = generations.number + 1 :=
  List.length_append

theorem table_clear (store : StoreRef) :
    generations.clear.table store =
      if generations.number ≤ store.generation then .empty else generations.table store := by
  show Tables.table (((generations.earlier ++ [.empty])[store.generation]?).getD .empty) _ = _
  split
  · rename_i attached
    rw [List.getElem?_append_right attached]
    cases store.generation - generations.earlier.length <;> rfl
  · rename_i detached
    have past : store.generation < generations.earlier.length := Nat.not_le.1 detached
    rw [List.getElem?_append_left past, table, tablesOf, List.getElem?_eq_getElem past]
    rfl

end Generations

/-! ### Calls through handles -/

/-- A call of a user who keeps the handles that have been opened. -/
inductive HandleCall where
  | openStore (name : String)
  | mutate (handle : StoreRef) (key : Bytes) (additions : List Entry) (deletions : List Bytes)
  | compareAndSwap (handle : StoreRef) (key column : Bytes) (expected : Option Bytes) (new : Bytes)
  | getSlice (handle : StoreRef) (key : Bytes) (slice : Slice)
  | clearStorage

inductive HandleReply where
  | opened (handle : StoreRef)
  | done
  | swapped (written : Bool)
  | entries (entries : List Entry)

def HandleCall.perform {σ : Type} (manager : Manager σ) : HandleCall → Action σ HandleReply
  | .openStore name => do return .opened (← manager.openStore name)
  | .mutate handle key additions deletions => do
    manager.mutate handle key additions deletions
    return .done
  | .compareAndSwap handle key column expected new => do
    return .swapped (← manager.compareAndSwap handle key column expected new)
  | .getSlice handle key slice => do return .entries (← manager.getSlice handle key slice)
  | .clearStorage => do
    manager.clearStorage
    return .done

def HandleCall.handle? : HandleCall → Option StoreRef
  | .mutate handle _ _ _ => some handle
  | .compareAndSwap handle _ _ _ _ => some handle
  | .getSlice handle _ _ => some handle
  | _ => none

/-- A call and what it has answered. -/
structure Exchange where
  call : HandleCall
  reply : Result HandleReply

/-- What an acknowledged call does to the stores. -/
inductive StoreEffect where
  | written (handle : StoreRef) (key : Bytes) (additions : List Entry) (deletions : List Bytes)
  | cleared
deriving DecidableEq

namespace Exchange

def effect? : Exchange → Option StoreEffect
  | ⟨.mutate handle key additions deletions, .ok _⟩ =>
    some (.written handle key additions deletions)
  | ⟨.compareAndSwap handle key column _ new, .ok (.swapped true)⟩ =>
    some (.written handle key [⟨column, new⟩] [])
  | ⟨.clearStorage, .ok _⟩ => some .cleared
  | _ => none

/-- What is written goes through the handle of the call. -/
theorem handle?_of_written {call : HandleCall} {reply : Result HandleReply} {handle : StoreRef}
    {key : Bytes} {additions : List Entry} {deletions : List Bytes}
    (told : (Exchange.mk call reply).effect? = some (.written handle key additions deletions)) :
    call.handle? = some handle := by
  unfold effect? at told
  split at told
  · rename_i same
    obtain ⟨rfl, rfl⟩ := Exchange.mk.inj same
    obtain ⟨rfl, -⟩ := StoreEffect.written.inj (Option.some.inj told)
    rfl
  · rename_i same
    obtain ⟨rfl, rfl⟩ := Exchange.mk.inj same
    obtain ⟨rfl, -⟩ := StoreEffect.written.inj (Option.some.inj told)
    rfl
  · exact nomatch told
  · exact nomatch told

def opening (name : String) (handle : StoreRef) : Exchange :=
  ⟨.openStore name, .ok (.opened handle)⟩

end Exchange

/-- How often all stores have been emptied. -/
def clears (history : List Exchange) : Nat :=
  history.countP fun exchange => exchange.effect? = some .cleared

theorem clears_cons (exchange : Exchange) (earlier : List Exchange) :
    clears (exchange :: earlier) =
      clears earlier + if exchange.effect? = some .cleared then 1 else 0 := by
  rw [clears, List.countP_cons]
  simp only [decide_eq_true_eq]
  rfl

theorem clears_append (front back : List Exchange) :
    clears (front ++ back) = clears front + clears back := List.countP_append

def Opened (history : List Exchange) (handle : StoreRef) : Prop :=
  ∃ name, Exchange.opening name handle ∈ history

theorem Opened.cons {history : List Exchange} {handle : StoreRef} (opened : Opened history handle)
    {exchange : Exchange} : Opened (exchange :: history) handle := by
  obtain ⟨name, member⟩ := opened
  exact ⟨name, List.mem_cons_of_mem _ member⟩

/-- The rows that a history of calls, newest first, leaves behind a handle: those of the writes
through it, of which an emptying takes away all that came before, unless it has been cut off from
the manager by an earlier one. -/
def StoreRef.rows (handle : StoreRef) (start : Generations) : List Exchange → Table
  | [] => start.table handle
  | exchange :: earlier =>
    match exchange.effect? with
    | none => handle.rows start earlier
    | some (.written other key additions deletions) =>
      if other = handle then Table.change (handle.rows start earlier) key additions deletions
      else handle.rows start earlier
    | some .cleared =>
      if start.number + clears earlier ≤ handle.generation then .empty
      else handle.rows start earlier

/-- A run of calls, newest first, through handles that have been opened in it. -/
inductive HandleRun {σ : Type} (manager : Manager σ) (start : σ) : List Exchange → σ → Prop where
  | start : HandleRun manager start [] start
  | call {history : List Exchange} {state after : σ} {call : HandleCall}
      {reply : Result HandleReply} (earlier : HandleRun manager start history state)
      (held : ∀ handle, call.handle? = some handle → Opened history handle)
      (answered : call.perform manager state = (reply, after)) :
      HandleRun manager start (⟨call, reply⟩ :: history) after

/-! ### Managers with handles -/

/-- Reads through the handle that are not refused show the rows. -/
def Manager.Shows {σ : Type} (manager : Manager σ) (state : σ) (handle : StoreRef) (rows : Table) :
    Prop :=
  ∀ key slice, manager.getSlice handle key slice state = (.ok (Table.slice rows key slice), state) ∨
    ∃ failure, manager.getSlice handle key slice state = (.error failure, state)

/-- A manager whose handles reach the tables of the generation in which they were opened. What is
refused changes nothing. -/
structure HandleBackend {σ : Type} (manager : Manager σ) where
  stores : σ → Generations
  opens : ∀ state name, manager.openStore name state = (.ok ((stores state).refer name), state) ∨
    ∃ failure, manager.openStore name state = (.error failure, state)
  reads : ∀ state handle, manager.Shows state handle ((stores state).table handle)
  mutates : ∀ state handle key additions deletions, ∃ outcome after,
    manager.mutate handle key additions deletions state = (outcome, after) ∧
      stores after = match outcome with
        | .ok () => (stores state).change handle key additions deletions
        | .error _ => stores state
  swaps : ∀ state handle key column expected new, ∃ outcome after,
    manager.compareAndSwap handle key column expected new state = (outcome, after) ∧
      stores after = match outcome with
        | .ok true => (stores state).change handle key [⟨column, new⟩] []
        | _ => stores state
  clears : ∀ state, ∃ outcome after, manager.clearStorage state = (outcome, after) ∧
    stores after = match outcome with
      | .ok () => (stores state).clear
      | .error _ => stores state

def StoreEffect.apply : StoreEffect → Generations → Generations
  | .written handle key additions deletions, stores => stores.change handle key additions deletions
  | .cleared, stores => stores.clear

namespace HandleBackend

variable {σ : Type} {manager : Manager σ} (backend : HandleBackend manager) {state after : σ}
  {call : HandleCall} {reply : Result HandleReply}

/-- A call does what is acknowledged and nothing else, and a handle that it opens is one of the
current generation. -/
theorem perform_result (answered : call.perform manager state = (reply, after)) :
    backend.stores after =
        match (Exchange.mk call reply).effect? with
        | some effect => effect.apply (backend.stores state)
        | none => backend.stores state := by
  cases call with
  | openStore name =>
      rw [HandleCall.perform, Action.bind_pure_apply] at answered
      rcases backend.opens state name with opened | ⟨failure, failed⟩
      · rw [opened] at answered
        obtain ⟨rfl, rfl⟩ := Prod.mk.inj answered
        rfl
      · rw [failed] at answered
        obtain ⟨rfl, rfl⟩ := Prod.mk.inj answered
        rfl
  | mutate handle key additions deletions =>
      obtain ⟨outcome, left, ran, stores⟩ := backend.mutates state handle key additions deletions
      rw [HandleCall.perform, Action.bind_pure_apply, ran] at answered
      obtain ⟨rfl, rfl⟩ := Prod.mk.inj answered
      cases outcome <;> exact stores
  | compareAndSwap handle key column expected new =>
      obtain ⟨outcome, left, ran, stores⟩ := backend.swaps state handle key column expected new
      rw [HandleCall.perform, Action.bind_pure_apply, ran] at answered
      obtain ⟨rfl, rfl⟩ := Prod.mk.inj answered
      rcases outcome with _ | _ | _ <;> exact stores
  | getSlice handle key slice =>
      rw [HandleCall.perform, Action.bind_pure_apply] at answered
      rcases backend.reads state handle key slice with read | ⟨failure, failed⟩
      · rw [read] at answered
        obtain ⟨rfl, rfl⟩ := Prod.mk.inj answered
        rfl
      · rw [failed] at answered
        obtain ⟨rfl, rfl⟩ := Prod.mk.inj answered
        rfl
  | clearStorage =>
      obtain ⟨outcome, left, ran, stores⟩ := backend.clears state
      rw [HandleCall.perform, Action.bind_pure_apply, ran] at answered
      obtain ⟨rfl, rfl⟩ := Prod.mk.inj answered
      cases outcome <;> exact stores

theorem opened_eq {name : String} {handle : StoreRef}
    (answered : HandleCall.perform manager (.openStore name) state =
      (.ok (.opened handle), after)) : handle = (backend.stores state).refer name := by
  rw [HandleCall.perform, Action.bind_pure_apply] at answered
  rcases backend.opens state name with opened | ⟨failure, failed⟩
  · rw [opened] at answered
    exact (HandleReply.opened.inj (Except.ok.inj (congrArg Prod.fst answered))).symm
  · rw [failed] at answered
    exact nomatch congrArg Prod.fst answered

end HandleBackend

/-! ### Both backends -/

def GuardedManager.handleBackend {σ : Type} {manager : Manager σ}
    (guarded : GuardedManager manager) : HandleBackend manager where
  stores := guarded.stores
  opens state name := by
    cases closed : guarded.closed state with
    | false => exact Or.inl (guarded.openStore_of_open closed name)
    | true => exact Or.inr ⟨_, (guarded.refuses closed).opens name⟩
  reads state handle key slice := by
    cases closed : guarded.closed state with
    | false => exact Or.inl (guarded.getSlice_of_handle closed handle key slice)
    | true => exact Or.inr ⟨_, (guarded.refuses closed).reads handle key slice⟩
  mutates state handle key additions deletions := by
    cases closed : guarded.closed state with
    | true => exact ⟨_, _, (guarded.refuses closed).mutates handle key additions deletions, rfl⟩
    | false =>
        have writes := guarded.writes handle key additions deletions
        rw [guarded.mutate_of_open closed]
        rcases written : guarded.write handle key additions deletions state with
          ⟨failure | done, after⟩
        · exact ⟨_, after, rfl, writes.unmade written⟩
        · exact ⟨_, after, rfl, writes.made written⟩
  swaps state handle key column expected new := by
    cases closed : guarded.closed state with
    | true => exact ⟨_, _, (guarded.refuses closed).swaps handle key column expected new, rfl⟩
    | false =>
        have writes := guarded.writes handle key [⟨column, new⟩] []
        rcases written : guarded.write handle key [⟨column, new⟩] [] state with ⟨outcome, after⟩
        have compared :=
          guarded.compareAndSwap_of_written closed handle key column expected new written
        split at compared
        · cases outcome with
          | ok done => exact ⟨_, after, compared, writes.made written⟩
          | error failure => exact ⟨_, after, compared, writes.unmade written⟩
        · exact ⟨_, _, compared, rfl⟩
  clears state := by
    rcases cleared : manager.clearStorage state with ⟨failure | done, after⟩
    · exact ⟨_, after, rfl, guarded.clears.unmade cleared⟩
    · exact ⟨_, after, rfl, guarded.clears.made cleared⟩

def Memory.handleBackend : HandleBackend Memory.manager := guarded.handleBackend

/-- Handles of the backend with the log, whatever its file does. -/
def Embedded.handleBackend : HandleBackend Embedded.manager := guarded.handleBackend

/-! ### Runs -/

namespace HandleRun

variable {σ : Type} {manager : Manager σ} {start state : σ} {history : List Exchange}

/-- The generation counts the emptyings that have succeeded. -/
theorem number_eq (backend : HandleBackend manager) (run : HandleRun manager start history state) :
    (backend.stores state).number = (backend.stores start).number + clears history := by
  induction run with
  | start => rfl
  | @call history state after call reply _ _ answered inductionHypothesis =>
      have stores := backend.perform_result answered
      rw [clears_cons, ← Nat.add_assoc, ← inductionHypothesis, stores]
      rcases (Exchange.mk call reply).effect? with _ | ⟨handle, key, additions, deletions⟩ | _
      · rfl
      · exact Generations.number_change _ _ _ _ _
      · exact Generations.number_clear _

/-- A run has been at every earlier point of its history. -/
theorem of_append {later earlier : List Exchange}
    (run : HandleRun manager start (later ++ earlier) state) :
    ∃ before, HandleRun manager start earlier before := by
  induction later generalizing state with
  | nil => exact ⟨state, run⟩
  | cons exchange later inductionHypothesis =>
      cases run with
      | call before => exact inductionHypothesis before

/-- A handle stands for a name and for the number of emptyings before it was opened. -/
theorem eq_of_opening (backend : HandleBackend manager) {later earlier : List Exchange}
    {name : String} {handle : StoreRef}
    (run : HandleRun manager start (later ++ Exchange.opening name handle :: earlier) state) :
    handle = ⟨name, (backend.stores start).number + clears earlier⟩ := by
  obtain ⟨before, run⟩ := run.of_append
  cases run with
  | call earlier _ answered =>
      rw [backend.opened_eq answered, Generations.refer, earlier.number_eq backend]

/-- No handle is from a generation to come. -/
theorem issued (backend : HandleBackend manager) (run : HandleRun manager start history state)
    {handle : StoreRef} (opened : Opened history handle) :
    handle.generation ≤ (backend.stores state).number := by
  obtain ⟨name, member⟩ := opened
  obtain ⟨later, earlier, rfl⟩ := List.append_of_mem member
  rw [run.number_eq backend, run.eq_of_opening backend, clears_append]
  dsimp only
  rw [clears_cons]
  omega

/-- The table behind a handle is the one that the acknowledged calls have left. -/
theorem table_eq (backend : HandleBackend manager) (run : HandleRun manager start history state)
    {handle : StoreRef} (present : handle.generation ≤ (backend.stores state).number) :
    (backend.stores state).table handle = handle.rows (backend.stores start) history := by
  induction run with
  | start => rfl
  | @call history state after call reply earlier held answered inductionHypothesis =>
      have stores := backend.perform_result answered
      rw [stores] at present ⊢
      rw [StoreRef.rows]
      rcases told : (Exchange.mk call reply).effect? with
        _ | ⟨other, key, additions, deletions⟩ | _
      · rw [told] at present
        exact inductionHypothesis present
      · rw [told] at present
        have known := earlier.issued backend (held other (Exchange.handle?_of_written told))
        have still : handle.generation ≤ (backend.stores state).number := by
          rw [← Generations.number_change _ other key additions deletions]
          exact present
        dsimp only [StoreEffect.apply]
        rw [Generations.table_change _ known still, inductionHypothesis still]
      · dsimp only [StoreEffect.apply]
        rw [Generations.table_clear, earlier.number_eq backend]
        split
        · rfl
        · rename_i detached
          apply inductionHypothesis
          rw [earlier.number_eq backend]
          omega

end HandleRun

end GraphStore
