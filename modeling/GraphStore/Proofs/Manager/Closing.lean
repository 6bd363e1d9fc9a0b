import GraphStore.Proofs.Manager.Guarded

/-!
Contract: a manager that has been closed.

Owns the calls of a user who keeps handles and walks from before (`ManagerCall`), what it means that
a call is refused (`ManagerCall.Refused`), and what becomes of any run of calls on a closed manager
(`AfterClose`): all but the emptying of the storage are refused and change nothing, and the emptying
is not refused. The backend in memory and the one with the log both behave so (`closed_exact`).
-/

namespace GraphStore

/-! ### Walks -/

namespace Pager

/-- A step of a walk that takes no page: it yields a row that was at hand, with the rows behind it
left, or fails for good with `cause`, or is at the end. -/
structure Unfed (cause : StoreError) (before : Pager) (row : Option (Result KeyedRow))
    (after : Pager) : Prop where
  rows : ∀ found, row = some (.ok found) →
    ∃ skipped, before.buffered = skipped ++ found :: after.buffered
  failures : ∀ failure, row = some (.error failure) → failure = cause ∧ after.exhausted = true
  buffered : after.buffered <:+ before.buffered
  lastKey : after.lastKey = before.lastKey

theorem of_draw {selector left : Selector} {rows back : List KeyedRow} {row : KeyedRow}
    (drew : draw selector rows = (some row, left, back)) :
    ∃ skipped, rows = skipped ++ row :: back := by
  induction rows generalizing selector with
  | nil => exact nomatch drew
  | cons first rows inductionHypothesis =>
      rw [draw] at drew
      split at drew
      · obtain ⟨same, others⟩ := Prod.mk.inj drew
        obtain rfl := Option.some.inj same
        obtain ⟨-, rfl⟩ := Prod.mk.inj others
        exact ⟨[], rfl⟩
      · obtain ⟨skipped, rfl⟩ := inductionHypothesis drew
        exact ⟨first :: skipped, rfl⟩

/-- A step that yields nothing. -/
theorem Unfed.ended {cause : StoreError} {before after : Pager}
    (buffered : after.buffered <:+ before.buffered) (lastKey : after.lastKey = before.lastKey) :
    before.Unfed cause none after :=
  ⟨by rintro found ⟨⟩, by rintro failure ⟨⟩, buffered, lastKey⟩

/-- A walk whose pages are refused takes none. -/
theorem next_of_refused {σ : Type} {fetch : PageSource σ} {state : σ} {cause : StoreError}
    (refused : ∀ lastKey size, fetch lastKey size state = (.error cause, state)) (fuel : Nat)
    (pager : Pager) :
    ∃ row after, Pager.next fetch fuel pager state = (row, after, state) ∧
      pager.Unfed cause row after := by
  cases fuel with
  | zero => exact ⟨none, pager, rfl, .ended (List.suffix_refl _) rfl⟩
  | succ fuel =>
      rw [Pager.next]
      split
      · exact ⟨none, pager, rfl, .ended (List.suffix_refl _) rfl⟩
      · split
        · rename_i row selector back drew
          obtain ⟨skipped, parts⟩ := of_draw drew
          refine ⟨_, _, rfl, ?_, by rintro failure ⟨⟩, ?_, rfl⟩
          · rintro found same
            obtain rfl := Except.ok.inj (Option.some.inj same)
            exact ⟨skipped, parts⟩
          · exact ⟨skipped ++ [row], by rw [parts, List.append_assoc]; rfl⟩
        · dsimp only
          split
          · exact ⟨none, _, rfl, .ended List.nil_suffix rfl⟩
          · rw [refused]
            refine ⟨_, _, rfl, by rintro found ⟨⟩, ?_, List.nil_suffix, rfl⟩
            rintro failure same
            exact ⟨(Except.error.inj (Option.some.inj same)).symm, rfl⟩

end Pager

/-! ### Calls -/

/-- What a user can call on a manager, or through a handle or a walk from any earlier time. -/
inductive ManagerCall (Upkeep : Type) where
  | openStore (name : String)
  | getSlice (handle : StoreRef) (key : Bytes) (slice : Slice)
  | mutate (handle : StoreRef) (key : Bytes) (additions : List Entry) (deletions : List Bytes)
  | compareAndSwap (handle : StoreRef) (key column : Bytes) (expected : Option Bytes) (new : Bytes)
  | getKeys (handle : StoreRef) (range : KeyRange) (slice : Slice) (selector : Selector)
  | next (walk : Manager.Scan)
  | mutateMany (mutations : StoreMutations)
  | upkeep (operation : Upkeep)
  | clearStorage
  | close

inductive ManagerReply where
  | done
  | opened (handle : StoreRef)
  | entries (entries : List Entry)
  | swapped (written : Bool)
  | started (walk : Manager.Scan)
  | walked (row : Option (Result KeyedRow)) (walk : Manager.Scan)
  | kept (records : Nat)

namespace ManagerCall

variable {Upkeep σ : Type}

/-- Runs a call. `maintain` runs the operations that the backend has of its own. -/
def perform (manager : Manager σ) (maintain : Upkeep → Action σ Nat) :
    ManagerCall Upkeep → Action σ ManagerReply
  | .openStore name => do return .opened (← manager.openStore name)
  | .getSlice handle key slice => do return .entries (← manager.getSlice handle key slice)
  | .mutate handle key additions deletions => do
    manager.mutate handle key additions deletions
    return .done
  | .compareAndSwap handle key column expected new => do
    return .swapped (← manager.compareAndSwap handle key column expected new)
  | .getKeys handle range slice selector => do
    return .started (← manager.getKeys handle range slice selector)
  | .next walk => fun state =>
    let (row, walk, state) := walk.next manager state
    (.ok (.walked row walk), state)
  | .mutateMany mutations => do
    manager.mutateMany mutations
    return .done
  | .upkeep operation => do return .kept (← maintain operation)
  | .clearStorage => do
    manager.clearStorage
    return .done
  | .close => do
    manager.close
    return .done

def empties : ManagerCall Upkeep → Bool
  | .clearStorage => true
  | _ => false

/-- What a call answers when it is refused. A change of many rows tells the first store that it is
refused for, a walk goes on with the rows at hand, and closing once more succeeds. -/
def Refused (cause : StoreError) : ManagerCall Upkeep → Result ManagerReply → Prop
  | .next walk, reply => ∃ row pager,
      reply = .ok (.walked row { walk with pager := pager }) ∧ walk.pager.Unfed cause row pager
  | .mutateMany mutations, reply =>
    match mutations.entries with
    | [] => reply = .ok .done
    | (name, _) :: _ => reply = .error (.persistence name cause)
  | .close, reply => reply = .ok .done
  | _, reply => reply = .error cause

/-- Runs calls one after the other, whatever each answers. -/
def performAll (manager : Manager σ) (maintain : Upkeep → Action σ Nat) :
    List (ManagerCall Upkeep) → σ → List (Result ManagerReply) × σ
  | [], state => ([], state)
  | call :: calls, state =>
    let (reply, after) := call.perform manager maintain state
    let (replies, final) := performAll manager maintain calls after
    (reply :: replies, final)

theorem perform_next {manager : Manager σ} {maintain : Upkeep → Action σ Nat}
    {walk : Manager.Scan} {state after : σ} {row : Option (Result KeyedRow)} {pager : Pager}
    (stepped : walk.pager.next (manager.scanPage walk.store walk.range walk.slice)
      (manager.rowCount walk.store state + 2) state = (row, pager, after)) :
    perform manager maintain (.next walk) state =
      (.ok (.walked row { walk with pager := pager }), after) := by
  have next : walk.next manager state = (row, { walk with pager := pager }, after) := by
    unfold Manager.Scan.next
    dsimp only
    rw [stepped]
  show (match walk.next manager state with
    | (row, walk, state) => (Except.ok (ManagerReply.walked row walk), state)) = _
  rw [next]

/-- Every call of a run is refused, and nothing changes. -/
def AllRefused (manager : Manager σ) (maintain : Upkeep → Action σ Nat) (cause : StoreError)
    (state : σ) (calls : List (ManagerCall Upkeep)) : Prop :=
  (∀ attempt ∈ calls.zip (performAll manager maintain calls state).1,
    attempt.1.Refused cause attempt.2) ∧ (performAll manager maintain calls state).2 = state

theorem performAll_cons {manager : Manager σ} {maintain : Upkeep → Action σ Nat}
    {call : ManagerCall Upkeep} {state after : σ} {reply : Result ManagerReply}
    (performed : call.perform manager maintain state = (reply, after))
    (calls : List (ManagerCall Upkeep)) :
    performAll manager maintain (call :: calls) state =
      (reply :: (performAll manager maintain calls after).1,
        (performAll manager maintain calls after).2) := by
  rw [performAll, performed]

end ManagerCall

open ManagerCall

/-! ### Closed managers -/

/-- What becomes of a run of calls on a closed manager. -/
structure AfterClose {Upkeep σ : Type} (manager : Manager σ) (maintain : Upkeep → Action σ Nat)
    (cause : StoreError) (state : σ) (calls : List (ManagerCall Upkeep)) : Prop where
  /-- All calls that do not empty the storage are refused. -/
  refused : ∀ attempt ∈ calls.zip (performAll manager maintain calls state).1,
    attempt.1.empties = false → attempt.1.Refused cause attempt.2
  /-- What the calls leave is what the emptying among them leaves. -/
  final : (performAll manager maintain calls state).2 =
    (performAll manager maintain (calls.filter empties) state).2
  /-- Nothing gets through just when no call empties the storage. -/
  exact_iff : AllRefused manager maintain cause state calls ↔ ∀ call ∈ calls, call.empties = false

/-- Every operation but the emptying of the storage is refused; a change of many rows at its first
store, and closing has nothing left to do. -/
structure Refusing {Upkeep σ : Type} (manager : Manager σ) (maintain : Upkeep → Action σ Nat)
    (cause : StoreError) (state : σ) : Prop extends RefusesCalls manager cause state where
  batches : ∀ mutations : StoreMutations, manager.mutateMany mutations state =
    (match mutations.entries with
      | [] => .ok ()
      | (name, _) :: _ => .error (.persistence name cause), state)
  maintains : ∀ operation, maintain operation state = (.error cause, state)
  closes : manager.close state = (.ok (), state)

/-- A call on such a manager is refused and changes nothing. -/
theorem Refusing.perform {Upkeep σ : Type} {manager : Manager σ} {maintain : Upkeep → Action σ Nat}
    {cause : StoreError} {state : σ} (refusing : Refusing manager maintain cause state)
    {call : ManagerCall Upkeep} (guarded : call.empties = false) :
    ∃ reply, call.perform manager maintain state = (reply, state) ∧ call.Refused cause reply := by
  cases call with
  | openStore name => exact ⟨_, Action.bind_of_error (refusing.opens name), rfl⟩
  | getSlice handle key slice =>
      exact ⟨_, Action.bind_of_error (refusing.reads handle key slice), rfl⟩
  | mutate handle key additions deletions =>
      exact ⟨_, Action.bind_of_error (refusing.mutates handle key additions deletions), rfl⟩
  | compareAndSwap handle key column expected new =>
      exact ⟨_, Action.bind_of_error (refusing.swaps handle key column expected new), rfl⟩
  | getKeys handle range slice selector =>
      exact ⟨_, Action.bind_of_error (Action.bind_of_error (refusing.scans handle)), rfl⟩
  | next walk =>
      obtain ⟨row, pager, stepped, unfed⟩ := Pager.next_of_refused
        (refusing.pages walk.store walk.range walk.slice) (manager.rowCount walk.store state + 2)
        walk.pager
      exact ⟨_, perform_next stepped, row, pager, rfl, unfed⟩
  | mutateMany mutations =>
      have batch := refusing.batches mutations
      unfold Refused
      dsimp only
      split
      · rename_i empty
        rw [empty] at batch
        exact ⟨_, Action.bind_of_ok batch, rfl⟩
      · rename_i first
        rw [first] at batch
        exact ⟨_, Action.bind_of_error batch, rfl⟩
  | upkeep operation => exact ⟨_, Action.bind_of_error (refusing.maintains operation), rfl⟩
  | clearStorage => exact nomatch guarded
  | close => exact ⟨_, Action.bind_of_ok refusing.closes, rfl⟩

/-- A manager that looks in all calls but the emptying of the storage whether it has been closed. -/
structure ClosableManager {Upkeep σ : Type} (manager : Manager σ)
    (maintain : Upkeep → Action σ Nat) where
  cause : StoreError
  isClosed : σ → Prop
  closes : ∀ {state after}, manager.close state = (.ok (), after) → isClosed after
  refuses : ∀ {state}, isClosed state → Refusing manager maintain cause state
  clears : ∀ {state}, isClosed state → ∃ outcome after,
    manager.clearStorage state = (outcome, after) ∧ outcome ≠ .error cause ∧ isClosed after

namespace ClosableManager

variable {Upkeep σ : Type} {manager : Manager σ} {maintain : Upkeep → Action σ Nat}
  (closable : ClosableManager manager maintain) {state : σ} (closed : closable.isClosed state)
include closed

/-- The emptying is not refused. -/
theorem empties_result {call : ManagerCall Upkeep} (emptying : call.empties = true) :
    ∃ reply after, call.perform manager maintain state = (reply, after) ∧
      ¬ call.Refused closable.cause reply ∧ closable.isClosed after := by
  cases call with
  | clearStorage =>
      obtain ⟨outcome, after, cleared, notRefused, stillClosed⟩ := closable.clears closed
      cases outcome with
      | ok done => exact ⟨_, _, Action.bind_of_ok cleared, nofun, stillClosed⟩
      | error failure =>
          refine ⟨_, _, Action.bind_of_error cleared, fun refused => ?_, stillClosed⟩
          exact notRefused (congrArg Except.error (Except.error.inj refused))
  | _ => exact nomatch emptying

/-- Every call but the emptying is refused with the one cause. -/
theorem refused (calls : List (ManagerCall Upkeep)) :
    ∀ attempt ∈ calls.zip (performAll manager maintain calls state).1,
      attempt.1.empties = false → attempt.1.Refused closable.cause attempt.2 := by
  induction calls generalizing state with
  | nil => exact fun attempt member => absurd member List.not_mem_nil
  | cons call calls inductionHypothesis =>
      cases emptying : call.empties with
      | false =>
          obtain ⟨reply, performed, refused⟩ := (closable.refuses closed).perform emptying
          rw [performAll_cons performed]
          exact List.forall_mem_cons.2 ⟨fun _ => refused, inductionHypothesis closed⟩
      | true =>
          obtain ⟨reply, after, performed, -, stillClosed⟩ :=
            closable.empties_result closed emptying
          rw [performAll_cons performed]
          refine List.forall_mem_cons.2 ⟨fun other => ?_, inductionHypothesis stillClosed⟩
          exact absurd (other.symm.trans emptying) Bool.false_ne_true

/-- Refused calls leave no trace: only the emptyings count. -/
theorem final (calls : List (ManagerCall Upkeep)) :
    (performAll manager maintain calls state).2 =
      (performAll manager maintain (calls.filter empties) state).2 := by
  induction calls generalizing state with
  | nil => rfl
  | cons call calls inductionHypothesis =>
      cases emptying : call.empties with
      | false =>
          obtain ⟨reply, performed, -⟩ := (closable.refuses closed).perform emptying
          rw [performAll_cons performed, List.filter_cons_of_neg (by rw [emptying]; exact nofun)]
          exact inductionHypothesis closed
      | true =>
          obtain ⟨reply, after, performed, -, stillClosed⟩ :=
            closable.empties_result closed emptying
          rw [performAll_cons performed, List.filter_cons_of_pos emptying,
            performAll_cons performed]
          exact inductionHypothesis stillClosed

theorem allRefused_iff (calls : List (ManagerCall Upkeep)) :
    AllRefused manager maintain closable.cause state calls ↔
      ∀ call ∈ calls, call.empties = false := by
  constructor
  · rintro ⟨refused, -⟩
    induction calls generalizing state with
    | nil => exact nofun
    | cons call calls inductionHypothesis =>
        cases emptying : call.empties with
        | false =>
            obtain ⟨reply, performed, -⟩ := (closable.refuses closed).perform emptying
            rw [performAll_cons performed] at refused
            have others := (List.forall_mem_cons.1 refused).2
            exact List.forall_mem_cons.2 ⟨emptying, inductionHypothesis closed others⟩
        | true =>
            obtain ⟨reply, after, performed, through, -⟩ := closable.empties_result closed emptying
            rw [performAll_cons performed] at refused
            exact absurd (List.forall_mem_cons.1 refused).1 through
  · intro guarded
    have none : calls.filter empties = [] :=
      List.filter_eq_nil_iff.2 fun call member => by rw [guarded call member]; exact nofun
    refine ⟨fun attempt member => ?_, ?_⟩
    · exact closable.refused closed calls attempt member
        (guarded attempt.1 (List.of_mem_zip member).1)
    · rw [closable.final closed calls, none]
      rfl

theorem afterClose (calls : List (ManagerCall Upkeep)) :
    AfterClose manager maintain closable.cause state calls where
  refused := closable.refused closed calls
  final := closable.final closed calls
  exact_iff := closable.allRefused_iff closed calls

end ClosableManager

/-! ### Both backends -/

/-- A guarded manager can be closed, if the operations that it has of its own are refused too. -/
def GuardedManager.closable {Upkeep σ : Type} {manager : Manager σ}
    (guarded : GuardedManager manager) {maintain : Upkeep → Action σ Nat}
    (maintains : ∀ {state}, guarded.closed state = true → ∀ operation,
      maintain operation state = (.error (.closed guarded.component), state)) :
    ClosableManager manager maintain where
  cause := .closed guarded.component
  isClosed state := guarded.closed state = true
  closes := guarded.closes
  refuses {state} closed := {
    toRefusesCalls := guarded.refuses closed
    batches := fun mutations => by
      rw [guarded.batches]
      split
      · rename_i empty
        rw [empty]
        rfl
      · rename_i name rows _ first
        rw [first, List.forM_cons, Action.bind_of_error (guarded.refusesStore closed name rows)]
    maintains := maintains closed
    closes := guarded.closesOnce closed }
  clears {state} closed :=
    ⟨_, _, rfl, guarded.clearsClosed state, (guarded.clearsOpen state).trans closed⟩

/-- The backend in memory has no operations of its own. -/
def Memory.maintain : Empty → Action Memory Nat := nofun

def Memory.closable : ClosableManager Memory.manager maintain := guarded.closable fun _ => nofun

/-- The backend with the log can be compacted. -/
def Embedded.maintain : Unit → Action Embedded Nat := fun _ => compact

def Embedded.closable : ClosableManager Embedded.manager maintain :=
  guarded.closable fun closed _ => Action.ensureOpen_bind_of_closed closed _

/-- Behind a close that succeeds, whatever the state was, both backends refuse every call, through
handles and walks from before too, and change nothing: all but `clearStorage`, which does not look
whether the manager has been closed. So a run of calls changes nothing and is refused throughout
just when none of its calls empties the storage. -/
theorem closed_exact (inMemory : List (ManagerCall Empty)) (withLog : List (ManagerCall Unit)) :
    (∀ memory after, Memory.manager.close memory = (.ok (), after) →
        AfterClose Memory.manager Memory.maintain (.closed .memoryManager) after inMemory) ∧
      ∀ embedded after, Embedded.manager.close embedded = (.ok (), after) →
        AfterClose Embedded.manager Embedded.maintain (.closed .embeddedManager) after withLog :=
  ⟨fun _ _ success => Memory.closable.afterClose (Memory.closable.closes success) inMemory,
    fun _ _ success => Embedded.closable.afterClose (Embedded.closable.closes success) withLog⟩

def Memory.oneRow : Memory := (mutate ⟨"s", 0⟩ [1] [⟨[2], [3]⟩] [] .empty).2

def Embedded.oneRow : Embedded :=
  (mutate ⟨"s", 0⟩ [1] [⟨[2], [3]⟩] []
    ⟨.ofTables .empty, LogWriter.new (LogFile.ofBytes []) 0 0 true, false, ⟨0, 0, 0⟩, none⟩).2

/-- A write, a step of a walk with one row at hand, a change of many rows, and a second close. -/
def laterCalls {Upkeep : Type} : List (ManagerCall Upkeep) :=
  [.mutate ⟨"s", 0⟩ [1] [⟨[2], [4]⟩] [],
    .next ⟨⟨"s", 0⟩, .full, .fullRow, ⟨⟨fun _ => true, 10, 0⟩, 1, [⟨[1], [⟨[2], [3]⟩]⟩], some [1],
      false⟩⟩,
    .mutateMany (.ofList [("t", .ofList [([1], .ofParts [⟨[2], [3]⟩] [])])]), .close]

theorem ok_of_isOk {outcome : Result Unit} (succeeded : outcome.isOk = true) :
    outcome = .ok () := by
  cases outcome with
  | ok done => rfl
  | error failure => exact nomatch succeeded

theorem Embedded.close_oneRow : manager.close oneRow = (.ok (), (close oneRow).2) := by
  have synced : (close oneRow).1 = .ok () := ok_of_isOk (by decide +kernel)
  show ((close oneRow).1, (close oneRow).2) = _
  rw [synced]

theorem closed_exact_oneRow :
    AllRefused Memory.manager Memory.maintain (.closed .memoryManager)
      (Memory.close Memory.oneRow).2 laterCalls ∧
    AllRefused Embedded.manager Embedded.maintain (.closed .embeddedManager)
      (Embedded.close Embedded.oneRow).2 (.upkeep () :: laterCalls) := by
  obtain ⟨inMemory, withLog⟩ := closed_exact laterCalls (.upkeep () :: laterCalls)
  exact ⟨(inMemory Memory.oneRow _ rfl).exact_iff.2 (by decide),
    (withLog Embedded.oneRow _ Embedded.close_oneRow).exact_iff.2 (by decide)⟩

/-- Behind the close the emptying succeeds: the row is gone from the tables and from the log. -/
theorem clearStorage_of_closed :
    (∃ closed, Memory.manager.close Memory.oneRow = (.ok (), closed) ∧
      ¬ AllRefused Memory.manager Memory.maintain (.closed .memoryManager) closed
        [.clearStorage] ∧
      closed.stores.current ≠ .empty ∧ (Memory.manager.clearStorage closed).1 = .ok () ∧
      (Memory.manager.clearStorage closed).2.stores.current = .empty) ∧
    ∃ closed, Embedded.manager.close Embedded.oneRow = (.ok (), closed) ∧
      ¬ AllRefused Embedded.manager Embedded.maintain (.closed .embeddedManager) closed
        [.clearStorage] ∧
      closed.logFile.bytes.length = 26 ∧ (Embedded.manager.clearStorage closed).1 = .ok () ∧
      (Embedded.manager.clearStorage closed).2.logFile.bytes = [] := by
  refine ⟨⟨_, rfl, fun refused => ?_, by decide +kernel, rfl, rfl⟩,
    ⟨_, Embedded.close_oneRow, fun refused => ?_, by decide +kernel,
      ok_of_isOk (by decide +kernel), by decide +kernel⟩⟩
  · have closed : Memory.closable.isClosed (Memory.close Memory.oneRow).2 := rfl
    exact nomatch (Memory.closable.allRefused_iff closed _).1 refused _ List.mem_cons_self
  · have closed := Embedded.closable.closes Embedded.close_oneRow
    exact nomatch (Embedded.closable.allRefused_iff closed _).1 refused _ List.mem_cons_self

end GraphStore
