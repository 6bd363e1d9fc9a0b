import GraphStore.Proofs.Ids.Granting
import GraphStore.Proofs.Manager.Upkeep

/-!
Contract: handles of one name that are kept while all stores are emptied.

Owns what such handles share (`HandleRun.Shares`), and what the log makes of writes through a handle
from before the last emptying (`Embedded.Logs`). An emptying takes the rows away and has the manager
make new tables from then on, while a handle from before stays with its old table. So handles of one
name share rows exactly if no emptying lies between their openings, and authorities on both sides of
one start from the same watermark; the log, which knows names only, has the writes of both
(`handles_share_exact`).
-/

namespace GraphStore

/-- All stores have been emptied since the handle was opened. -/
def Detached (history : List Exchange) (handle : StoreRef) : Prop :=
  ∃ later earlier name, history = later ++ Exchange.opening name handle :: earlier ∧
    clears later ≠ 0

namespace HandleRun

section Shares

variable {σ : Type} {manager : Manager σ}

/-- What handles have in common at the end of a run. -/
structure Shares (backend : HandleBackend manager) (start state : σ) (history : List Exchange) :
    Prop where
  /-- Handles of one name are the same exactly if nothing was emptied between their openings. -/
  same : ∀ later between earlier name first second,
    history = later ++ Exchange.opening name second ::
      (between ++ Exchange.opening name first :: earlier) →
    (first = second ↔ clears between = 0)
  shows : ∀ handle, Opened history handle →
    manager.Shows state handle (handle.rows (backend.stores start) history)
  /-- An acknowledged write shows through the same handle, and through no other one. -/
  seen : ∀ call reply after handle key additions deletions,
    call.perform manager state = (reply, after) →
    (Exchange.mk call reply).effect? = some (.written handle key additions deletions) →
    Opened history handle → ∀ other, Opened history other →
    manager.Shows after other
      (if handle = other then
        Table.change (other.rows (backend.stores start) history) key additions deletions
      else other.rows (backend.stores start) history)
  /-- Blocks that are granted one after the other are apart if the authorities have the same handle.
  If not, each block starts at the watermark behind its own handle, and they overlap if these are
  the same. -/
  granted : ∀ (first second : IdAuthority), Opened history first.store →
    Opened history second.store → ∀ partitionId namespaceId timeout laterTimeout left right middle
      after,
    first.getIdBlock manager partitionId namespaceId timeout state = (.ok left, middle) →
    second.getIdBlock manager partitionId namespaceId laterTimeout middle = (.ok right, after) →
    (first.store = second.store → left.overlaps right = false) ∧
    (first.store ≠ second.store →
      IdAuthority.watermarkOf ((first.store.rows (backend.stores start) history).watermarkCell
        partitionId namespaceId) = .ok left.start ∧
      IdAuthority.watermarkOf ((second.store.rows (backend.stores start) history).watermarkCell
        partitionId namespaceId) = .ok right.start ∧
      (left.start = right.start → left.overlaps right = true))

variable (backend : HandleBackend manager) {start state : σ} {history : List Exchange}
  (run : HandleRun manager start history state)
include run

theorem detached_iff {handle : StoreRef} (opened : Opened history handle) :
    Detached history handle ↔ handle.generation < (backend.stores state).number := by
  constructor
  · intro detached
    obtain ⟨later, earlier, name, rfl, some⟩ := detached
    rw [run.number_eq backend, run.eq_of_opening backend, clears_append]
    dsimp only
    rw [clears_cons]
    omega
  · intro past
    obtain ⟨name, member⟩ := opened
    obtain ⟨later, earlier, rfl⟩ := List.append_of_mem member
    refine ⟨later, earlier, name, rfl, ?_⟩
    rw [run.number_eq backend, run.eq_of_opening backend, clears_append] at past
    dsimp only at past
    rw [clears_cons, if_neg nofun] at past
    omega

/-- A handle shows the rows that were written in its name and generation. -/
theorem shows {handle : StoreRef} (opened : Opened history handle) :
    manager.Shows state handle (handle.rows (backend.stores start) history) := by
  rw [← run.table_eq backend (run.issued backend opened)]
  exact backend.reads state handle

theorem shares : Shares backend start state history where
  same later between earlier name first second split := by
    subst split
    have secondEq := run.eq_of_opening backend
    obtain ⟨before, front⟩ := run.of_append
    have sooner : HandleRun manager start
        ((Exchange.opening name second :: between) ++ Exchange.opening name first :: earlier)
        before := front
    rw [secondEq, sooner.eq_of_opening backend, StoreRef.mk.injEq, clears_append, clears_cons,
      if_neg nofun]
    simp only [true_and]
    omega
  shows handle opened := run.shows backend opened
  seen call reply after handle key additions deletions answered told opened other otherOpened := by
    have through := Exchange.handle?_of_written told
    have held : ∀ other, call.handle? = some other → Opened history other := by
      intro other same
      obtain rfl := Option.some.inj (through.symm.trans same)
      exact opened
    have shown := (run.call held answered).shows backend otherOpened.cons
    rwa [StoreRef.rows, told] at shown
  granted first second firstOpened secondOpened partitionId namespaceId timeout laterTimeout left
      right middle after grantedLeft grantedRight := by
    have firstIssued := run.issued backend firstOpened
    have secondIssued := run.issued backend secondOpened
    obtain ⟨leftFull, leftClaim⟩ := backend.getIdBlock_granted _ _ _ grantedLeft
    obtain ⟨rightFull, rightClaim⟩ := backend.getIdBlock_granted _ _ _ grantedRight
    constructor
    · intro same
      exact IdBlock.not_overlaps_of_start
        (leftClaim.start_of_same rightClaim firstIssued secondIssued same)
    · intro different
      have leftStart := leftClaim.read
      have rightStart := leftClaim.start_of_different rightClaim firstIssued secondIssued different
      rw [run.table_eq backend firstIssued] at leftStart
      rw [run.table_eq backend secondIssued] at rightStart
      refine ⟨leftStart, rightStart, fun starts => ?_⟩
      exact IdBlock.overlaps_of_start (leftClaim.isOf.1.trans rightClaim.isOf.1.symm)
        (leftClaim.isOf.2.trans rightClaim.isOf.2.symm) starts (leftClaim.start_lt_stop leftFull)
        (rightClaim.start_lt_stop rightFull)

end Shares

end HandleRun

/-! ### The log -/

/-- A change on one side alone keeps tables together exactly if it would change nothing. -/
theorem Tables.Agree.change_iff {left right : Tables} (agree : Agree left right) (name : String)
    (key : Bytes) (additions : List Entry) (deletions : List Bytes) :
    Agree (Tables.change left name key additions deletions) right ↔
      Table.change (Tables.table right name) key additions deletions = Tables.table right name := by
  constructor
  · intro together
    have same := together name
    rwa [Tables.table_change, if_pos rfl, agree name] at same
  · intro unchanged other
    rw [Tables.table_change]
    split
    · rename_i same
      rw [agree name, unchanged, same]
    · exact agree other

/-- The row changes in the log behind an effect. -/
def StoreEffect.logged (changes : List RowChange) : StoreEffect → List RowChange
  | .written handle key additions deletions =>
    changes ++ [⟨handle.name, key, additions, deletions⟩]
  | .cleared => []

/-- The row changes in the log behind a history, newest call first. -/
def logged (changes : List RowChange) : List Exchange → List RowChange
  | [] => changes
  | exchange :: earlier =>
    match exchange.effect? with
    | some effect => effect.logged (logged changes earlier)
    | none => logged changes earlier

/-- Since the last emptying something has been written through a handle from before it. -/
def Strays : List Exchange → Prop
  | [] => False
  | exchange :: earlier =>
    match exchange.effect? with
    | some (.written handle _ _ _) => Detached earlier handle ∨ Strays earlier
    | some .cleared => False
    | none => Strays earlier

namespace Embedded

open Log

/-- The log holds the records of `changes`, whatever the tables hold; the backend is open and its
device is without faults. -/
structure Recording (embedded : Embedded) (changes : List RowChange) : Prop where
  holds : embedded.writer.Holds changes
  sound : embedded.writer.poisoned = false
  placed : embedded.replacement = none
  faultless : embedded.writer.file.Faultless
  isOpen : embedded.closed = false

theorem Running.recording {embedded : Embedded} {changes : List RowChange}
    (running : embedded.Running changes) : embedded.Recording changes where
  holds := running.coherent.holds
  sound := running.coherent.sound
  placed := running.coherent.placed
  faultless := running.faultless
  isOpen := running.isOpen

namespace Recording

variable {embedded : Embedded} {changes : List RowChange} (recording : embedded.Recording changes)
include recording

theorem recovered_eq : embedded.recovered = applyAll changes .empty := by
  have file : embedded.logFile = embedded.writer.file := by
    rw [Embedded.logFile, recording.placed]
    rfl
  rw [recovered, file, recording.holds.bytes, replay_frames recording.holds.loggable]

/-- A row change is logged under the name of the handle, or it is refused. -/
theorem writeRow_result (handle : StoreRef) (key : Bytes) (additions : List Entry)
    (deletions : List Bytes) :
    ∃ outcome after, writeRow handle key additions deletions embedded = (outcome, after) ∧
      after.Recording (match outcome with
        | .ok () => changes ++ [⟨handle.name, key, additions, deletions⟩]
        | .error _ => changes) := by
  by_cases loggable : RowChange.Loggable ⟨handle.name, key, additions, deletions⟩
  · have appended := LogWriter.append_of_loggable recording.sound recording.faultless loggable
    exact ⟨.ok (), _, Action.bind_of_ok (onWriter_of_ok appended), recording.holds.counted loggable,
      recording.sound, recording.placed, recording.faultless.written _, recording.isOpen⟩
  · obtain ⟨failure, refused⟩ := LogWriter.append_of_not_loggable recording.sound loggable
    exact ⟨.error failure, _, Action.bind_of_error (onWriter_of_error refused), recording.holds,
      recording.sound, recording.placed, recording.faultless, recording.isOpen⟩

/-- Every answered call is in the log as its reply says. -/
theorem perform {call : HandleCall} {reply : Result HandleReply} {after : Embedded}
    (answered : call.perform manager embedded = (reply, after)) :
    after.Recording (logged changes [⟨call, reply⟩]) := by
  cases call with
  | openStore name =>
      rw [HandleCall.perform, Action.bind_pure_apply,
        guarded.openStore_of_open recording.isOpen] at answered
      obtain ⟨rfl, rfl⟩ := Prod.mk.inj answered
      exact recording
  | mutate handle key additions deletions =>
      obtain ⟨outcome, left, written, still⟩ :=
        recording.writeRow_result handle key additions deletions
      rw [HandleCall.perform, Action.bind_pure_apply, guarded.mutate_of_open recording.isOpen,
        show guarded.write handle key additions deletions embedded = _ from written] at answered
      obtain ⟨rfl, rfl⟩ := Prod.mk.inj answered
      cases outcome <;> exact still
  | compareAndSwap handle key column expected new =>
      obtain ⟨outcome, left, written, still⟩ :=
        recording.writeRow_result handle key [⟨column, new⟩] []
      rw [HandleCall.perform, Action.bind_pure_apply,
        guarded.compareAndSwap_of_written recording.isOpen handle key column expected new written]
        at answered
      split at answered
      · obtain ⟨rfl, rfl⟩ := Prod.mk.inj answered
        cases outcome <;> exact still
      · obtain ⟨rfl, rfl⟩ := Prod.mk.inj answered
        exact recording
  | getSlice handle key slice =>
      rw [HandleCall.perform, Action.bind_pure_apply, guarded.getSlice_of_handle recording.isOpen]
        at answered
      obtain ⟨rfl, rfl⟩ := Prod.mk.inj answered
      exact recording
  | clearStorage =>
      have result := clearStorage_result embedded
      rcases emptied : Embedded.clearStorage embedded with ⟨outcome, left⟩
      rw [emptied] at result
      rw [HandleCall.perform, Action.bind_pure_apply,
        show manager.clearStorage embedded = _ from emptied] at answered
      obtain ⟨rfl, rfl⟩ := Prod.mk.inj answered
      cases result with
      | cleared device bytes position =>
          have noLength := congrArg List.length bytes.symm
          exact ⟨⟨List.forall_mem_nil _, bytes, noLength, position, rfl⟩, rfl, recording.placed,
            recording.faultless.of_sameDevice device, recording.isOpen⟩
      | uncut faulty => exact absurd recording.faultless faulty
      | cut device bytes position faulty => exact absurd recording.faultless faulty

end Recording

/-- What the log has at the end of a run, compared with what shows by opening stores. -/
structure Logs (start state : Embedded) (changes : List RowChange) (history : List Exchange) :
    Prop where
  recovered : state.recovered = applyAll (logged changes history) .empty
  shows : ∀ name handle after, manager.openStore name state = (.ok handle, after) →
    manager.Shows after handle (Tables.table state.stores.current name)
  agree : ¬ Strays history → Tables.Agree state.recovered state.stores.current
  /-- Log and tables stay together behind a further write exactly if it goes through a handle from
  behind the last emptying, or would change nothing in the current table. -/
  next : Tables.Agree state.recovered state.stores.current →
    ∀ call reply after handle key additions deletions,
      call.perform manager state = (reply, after) →
      (Exchange.mk call reply).effect? = some (.written handle key additions deletions) →
      Opened history handle →
      (Tables.Agree after.recovered after.stores.current ↔
        (Detached history handle →
          Table.change (Tables.table state.stores.current handle.name) key additions deletions =
            Tables.table state.stores.current handle.name))

section Logs

variable {start state : Embedded} {changes : List RowChange} {history : List Exchange}
  (run : HandleRun manager start history state)
include run

theorem recording_of_run (recording : start.Recording changes) :
    state.Recording (logged changes history) := by
  induction run with
  | start => exact recording
  | call _ _ answered inductionHypothesis => exact inductionHypothesis.perform answered

/-- What a write makes of the current tables. -/
theorem current_of_written {call : HandleCall} {reply : Result HandleReply} {after : Embedded}
    {handle : StoreRef} {key : Bytes} {additions : List Entry} {deletions : List Bytes}
    (answered : call.perform manager state = (reply, after))
    (told : (Exchange.mk call reply).effect? = some (.written handle key additions deletions))
    (opened : Opened history handle) :
    (Detached history handle → after.stores.current = state.stores.current) ∧
    (¬ Detached history handle →
      after.stores.current =
        Tables.change state.stores.current handle.name key additions deletions) := by
  have stores := handleBackend.perform_result answered
  rw [told] at stores
  have changed : after.stores = state.stores.change handle key additions deletions := stores
  rw [run.detached_iff handleBackend opened, changed]
  have issued := run.issued handleBackend opened
  constructor
  · intro past
    exact Generations.current_change_of_past _ past key additions deletions
  · intro present
    have same : handle.generation = state.stores.number :=
      Nat.le_antisymm issued (Nat.not_lt.1 present)
    exact Generations.current_change_of_present _ same key additions deletions

theorem agree_of_run (agree : Tables.Agree (applyAll changes .empty) start.stores.current)
    (straight : ¬ Strays history) :
    Tables.Agree (applyAll (logged changes history) .empty) state.stores.current := by
  induction run with
  | start => exact agree
  | @call history state after call reply earlier held answered inductionHypothesis =>
      rw [Strays] at straight
      rw [logged]
      rcases told : (Exchange.mk call reply).effect? with
        _ | ⟨handle, key, additions, deletions⟩ | _
      · rw [told] at straight
        have stores := handleBackend.perform_result answered
        rw [told] at stores
        rw [show after.stores = state.stores from stores]
        exact inductionHypothesis straight
      · rw [told] at straight
        obtain ⟨attached, straight⟩ := not_or.1 straight
        have opened := held handle (Exchange.handle?_of_written told)
        rw [(current_of_written earlier answered told opened).2 attached]
        dsimp only [StoreEffect.logged]
        rw [applyAll_append]
        exact (inductionHypothesis straight).change handle.name key additions deletions
      · have stores := handleBackend.perform_result answered
        rw [told] at stores
        rw [show after.stores = state.stores.clear from stores]
        exact .refl _

theorem logs (running : start.Running changes) : Logs start state changes history := by
  have recording := recording_of_run run running.recording
  constructor
  case recovered => exact recording.recovered_eq
  case shows =>
    intro name handle after opened
    rw [guarded.openStore_of_open recording.isOpen] at opened
    obtain ⟨same, rfl⟩ := Prod.mk.inj opened
    rw [← Except.ok.inj same, ← Generations.table_refer]
    exact handleBackend.reads state (state.stores.refer name)
  case agree =>
    intro straight
    rw [recording.recovered_eq]
    exact agree_of_run run running.coherent.agree straight
  case next =>
    intro agree call reply after handle key additions deletions answered told opened
    have further := recording.perform answered
    rw [logged, told] at further
    dsimp only [StoreEffect.logged, logged] at further
    rw [recording.recovered_eq] at agree
    rw [further.recovered_eq, applyAll_append]
    obtain ⟨whenDetached, whenAttached⟩ := current_of_written run answered told opened
    by_cases detached : Detached history handle
    · rw [whenDetached detached]
      have alone := agree.change_iff handle.name key additions deletions
      exact ⟨fun together _ => alone.1 together, fun still => alone.2 (still detached)⟩
    · rw [whenAttached detached]
      have together := agree.change handle.name key additions deletions
      exact ⟨fun _ => (absurd · detached), fun _ => together⟩

end Logs

end Embedded

/-! ### Handles across an emptying -/

/-- On either backend, handles of one name share their rows exactly if no emptying lies between
their openings. Without faults of the file, what the log gives is what shows by opening a store, up
to the first write that goes through a handle from before the last emptying and would have changed
what shows. -/
theorem handles_share_exact (history : List Exchange) :
    (∀ start state, HandleRun Memory.manager start history state →
      HandleRun.Shares Memory.handleBackend start state history) ∧
    ∀ start state, HandleRun Embedded.manager start history state →
      HandleRun.Shares Embedded.handleBackend start state history ∧
      ∀ changes, start.Running changes → Embedded.Logs start state changes history :=
  ⟨fun _ _ run => run.shares Memory.handleBackend,
    fun _ _ run => ⟨run.shares Embedded.handleBackend, fun _ => Embedded.logs run⟩⟩

/-- A store is opened, all are emptied, and it is opened again. -/
def reopening : List Exchange :=
  [.opening "system_ids" ⟨"system_ids", 1⟩, ⟨.clearStorage, .ok .done⟩,
    .opening "system_ids" ⟨"system_ids", 0⟩]

def Memory.emptied : Memory := ⟨⟨[.empty], .empty⟩, false⟩

theorem Memory.reopening_run : HandleRun Memory.manager .empty reopening Memory.emptied :=
  .call (.call (.call .start nofun rfl) nofun rfl) nofun rfl

def Embedded.emptied : Embedded := (clearStorage fresh).2

theorem Embedded.reopening_run : HandleRun Embedded.manager fresh reopening Embedded.emptied :=
  .call (.call (.call .start nofun rfl) nofun rfl) nofun rfl

theorem Embedded.running_fresh : fresh.Running [] where
  coherent := ⟨⟨nofun, rfl, rfl, rfl, rfl⟩, rfl, Tables.Agree.refl _, Tables.tidy_empty, rfl⟩
  faultless := LogFile.faultless_ofBytes []
  isOpen := rfl

theorem handles_share_exact_reopening :
    HandleRun.Shares Memory.handleBackend .empty Memory.emptied reopening ∧
    HandleRun.Shares Embedded.handleBackend .fresh Embedded.emptied reopening ∧
    Embedded.Logs .fresh Embedded.emptied [] reopening := by
  obtain ⟨inMemory, withLog⟩ := handles_share_exact reopening
  obtain ⟨shares, logs⟩ := withLog .fresh Embedded.emptied Embedded.reopening_run
  exact ⟨inMemory .empty Memory.emptied Memory.reopening_run, shares,
    logs [] Embedded.running_fresh⟩

def authorityOf (generation : Nat) : IdAuthority :=
  ⟨⟨"system_ids", generation⟩, .uniform 10 100, .standard, false⟩

/-- The backend with the log behind a write through the first handle. -/
def Embedded.strayed : Embedded :=
  (mutate ⟨"system_ids", 0⟩ [1] [⟨[2], [3]⟩] [] emptied).2

/-- The store is opened, all stores are emptied, and it is opened again. A write through the first
handle is acknowledged, and the second handle does not show it; on the backend with the log, replay
does. Authorities that have been opened along with the two handles are granted the same block. -/
theorem emptying_splits_handles :
    (HandleRun Memory.manager .empty reopening Memory.emptied ∧
      ∃ after, Memory.manager.mutate ⟨"system_ids", 0⟩ [1] [⟨[2], [3]⟩] [] Memory.emptied =
          (.ok (), after) ∧
        Memory.manager.getSlice ⟨"system_ids", 1⟩ [1] Slice.fullRow after = (.ok [], after)) ∧
    (HandleRun Embedded.manager .fresh reopening Embedded.emptied ∧
      ∃ after, Embedded.manager.mutate ⟨"system_ids", 0⟩ [1] [⟨[2], [3]⟩] [] Embedded.emptied =
          (.ok (), after) ∧
        Embedded.manager.getSlice ⟨"system_ids", 1⟩ [1] Slice.fullRow after = (.ok [], after) ∧
        Table.slice (Tables.table after.recovered "system_ids") [1] Slice.fullRow =
          [⟨[2], [3]⟩]) ∧
    IdAuthority.create Memory.manager (.uniform 10 100) .standard .empty =
      (.ok (authorityOf 0), .empty) ∧
    IdAuthority.create Memory.manager (.uniform 10 100) .standard Memory.emptied =
      (.ok (authorityOf 1), Memory.emptied) ∧
    ∃ middle after,
      (authorityOf 0).getIdBlock Memory.manager 1 2 0 Memory.emptied =
        (.ok ⟨1, 2, 0, 10⟩, middle) ∧
      (authorityOf 1).getIdBlock Memory.manager 1 2 0 middle = (.ok ⟨1, 2, 0, 10⟩, after) := by
  refine ⟨⟨Memory.reopening_run, _, rfl, rfl⟩,
    ⟨Embedded.reopening_run, Embedded.strayed, ?_, ?_, ?_⟩, rfl, rfl, _, _,
    IdAuthority.getIdBlock_of_claimed rfl rfl 0, IdAuthority.getIdBlock_of_claimed rfl rfl 0⟩
  · have acknowledged : (Embedded.mutate ⟨"system_ids", 0⟩ [1] [⟨[2], [3]⟩] []
        Embedded.emptied).1.isOk = true := by
      decide +kernel
    rcases ran : Embedded.mutate ⟨"system_ids", 0⟩ [1] [⟨[2], [3]⟩] [] Embedded.emptied with
      ⟨failure | done, after⟩
    · rw [ran] at acknowledged
      exact nomatch acknowledged
    · rw [Embedded.strayed, ran]
      exact ran
  · have isOpen : Embedded.strayed.closed = false := by decide +kernel
    have nothing : Table.slice (Embedded.strayed.stores.table ⟨"system_ids", 1⟩) [1]
        Slice.fullRow = [] := by
      decide +kernel
    rw [← nothing]
    exact Embedded.guarded.getSlice_of_handle isOpen ⟨"system_ids", 1⟩ [1] Slice.fullRow
  · decide +kernel

end GraphStore
