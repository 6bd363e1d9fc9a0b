import GraphStore.Proofs.Manager.Guarded
import GraphStore.Session.Basic

/-!
Contract: calls, compaction and opening on the backend with the log, without faults.

Owns `Embedded.Running`, which each of them keeps, and one specification lemma for each: what
is answered, and what the tables are afterwards. A row change that is too long for a record is
the one thing that can be refused (`CallResult`).
-/

namespace GraphStore

namespace Embedded

open Log

/-- The backend is open and its device is without faults; the log holds `changes`. -/
structure Running (embedded : Embedded) (changes : List RowChange) : Prop where
  coherent : embedded.Coherent changes
  faultless : embedded.writer.file.Faultless
  isOpen : embedded.closed = false

/-- Written rows leave the backend running. -/
theorem Wrote.running {before after : Embedded} {changes rows : List RowChange}
    (wrote : Wrote before changes rows after) (isOpen : before.closed = false) :
    after.Running (changes ++ rows) :=
  ⟨wrote.coherent, wrote.faultless, wrote.closed.trans isOpen⟩

/-- What a call on the open backend with the log can come to: it answers and leaves what it does
on the tables, or it fails at a row change that is too long for a record. The log follows in
either case. -/
inductive CallResult (call : StoreCall) (embedded : Embedded) :
    Result Reply → Embedded → Prop where
  | answered {after : Embedded} {recorded : List RowChange} (running : after.Running recorded)
      (left : after.stores.current = call.leave embedded.stores.current) :
      CallResult call embedded (.ok (call.answer embedded.stores.current)) after
  | refused {failure : StoreError} {after : Embedded} {recorded : List RowChange}
      (running : after.Running recorded) (tooLong : ¬ call.Fits) :
      CallResult call embedded (.error failure) after

/-- A call whose rows fit into records is answered, and the log follows. -/
theorem CallResult.answered_of_fits {call : StoreCall} {embedded after : Embedded}
    {outcome : Result Reply} (result : CallResult call embedded outcome after)
    (fits : call.Fits) :
    ∃ recorded, after.Running recorded ∧
      after.stores.current = call.leave embedded.stores.current ∧
      outcome = .ok (call.answer embedded.stores.current) := by
  cases result with
  | answered running left => exact ⟨_, running, left, rfl⟩
  | refused running tooLong => exact absurd fits tooLong

/-- An empty log is opened. -/
theorem openLog_empty (syncWrites : Bool) :
    ∃ embedded, ((openLog syncWrites).runOn (LogFile.ofBytes [])).1 = .ok embedded ∧
      embedded.Running [] := by
  have nothing : ∀ change ∈ ([] : List RowChange), change.Loggable := nofun
  obtain ⟨embedded, file, opened, coherent, faultless, isOpen, _⟩ :=
    openLog_frames syncWrites (LogFile.faultless_ofBytes []) nothing rfl
  exact ⟨embedded, congrArg Prod.fst opened, coherent, faultless, isOpen⟩

namespace Running

variable {embedded : Embedded} {changes : List RowChange}

theorem writeRows_result (running : embedded.Running changes) (name : String)
    (rows : List (Bytes × Mutation)) :
    ∃ outcome after, Embedded.writeRows (embedded.stores.refer name) rows embedded =
        (outcome, after) ∧
      WriteResult embedded changes (StoreCall.batchRows name rows) outcome after := by
  induction rows generalizing embedded changes with
  | nil => exact ⟨.ok (), embedded, rfl, .all (.none running.coherent running.faultless)⟩
  | cons row rows inductionHypothesis =>
      obtain ⟨outcome, middle, written, result⟩ := writeRow_result running.coherent
        running.faultless ⟨name, row.1, row.2.addedEntries, row.2.deletedColumns⟩
      cases result with
      | @front failure _ front wrote tooLong =>
          obtain ⟨change, member, long⟩ := tooLong
          rw [List.mem_singleton.1 member] at long
          exact ⟨_, _, Action.bind_of_error written, .front wrote ⟨_, List.mem_cons_self, long⟩⟩
      | all first =>
          have sameRef : middle.stores.refer name = embedded.stores.refer name := by
            rw [first.stores]
            rfl
          obtain ⟨outcome, after, others, result⟩ :=
            inductionHypothesis (first.running running.isOpen)
          rw [sameRef] at others
          refine ⟨outcome, after, (Action.bind_of_ok written).trans others, ?_⟩
          exact result.behind first

theorem mutateStores_result (running : embedded.Running changes)
    (batch : List (String × OrderedMap Bytes Mutation)) :
    ∃ outcome after, Embedded.mutateStores batch embedded = (outcome, after) ∧
      WriteResult embedded changes
        (batch.flatMap fun store => StoreCall.batchRows store.1 store.2.entries) outcome after := by
  induction batch generalizing embedded changes with
  | nil => exact ⟨.ok (), embedded, rfl, .all (.none running.coherent running.faultless)⟩
  | cons store batch inductionHypothesis =>
      obtain ⟨outcome, middle, written, result⟩ :=
        running.writeRows_result store.1 store.2.entries
      have rowsWritten : (do
          let opened ← openStore store.1
          Embedded.writeRows opened store.2.entries : Action Embedded Unit) embedded =
            (outcome, middle) :=
        (Action.bind_of_ok (guarded.openStore_of_open running.isOpen store.1)).trans written
      rw [Embedded.mutateStores, List.flatMap_cons]
      cases result with
      | @front failure _ front wrote tooLong =>
          obtain ⟨change, member, long⟩ := tooLong
          exact ⟨_, _, Action.bind_of_error (Action.mapError_of_error rowsWritten),
            .front wrote ⟨change, List.mem_append_left _ member, long⟩⟩
      | all first =>
          obtain ⟨outcome, after, others, result⟩ :=
            inductionHypothesis (first.running running.isOpen)
          refine ⟨outcome, after,
            (Action.bind_of_ok (Action.mapError_of_ok rowsWritten)).trans others, ?_⟩
          exact result.behind first

/-- Every call on the running backend comes to one of the cases of `CallResult`. -/
theorem perform_result (running : embedded.Running changes) (call : StoreCall) :
    ∃ outcome after, call.perform manager embedded = (outcome, after) ∧
      CallResult call embedded outcome after := by
  have opened := guarded.openStore_of_open running.isOpen
  cases call with
  | mutate name key additions deletions =>
      obtain ⟨outcome, after, written, result⟩ := writeRow_result running.coherent
        running.faultless ⟨name, key, additions, deletions⟩
      have changed : manager.mutate (embedded.stores.refer name) key additions deletions embedded =
          (outcome, after) :=
        (guarded.mutate_of_open running.isOpen _ key additions deletions).trans written
      cases result with
      | all wrote =>
          exact ⟨_, _, (Action.bind_of_ok (opened name)).trans (Action.bind_of_ok changed),
            .answered (wrote.running running.isOpen) (congrArg Generations.current wrote.stores)⟩
      | front wrote tooLong =>
          exact ⟨_, _, (Action.bind_of_ok (opened name)).trans (Action.bind_of_error changed),
            .refused (wrote.running running.isOpen) (StoreCall.not_fits tooLong)⟩
  | compareAndSwap name key column expected new =>
      obtain ⟨outcome, after, written, result⟩ := writeRow_result running.coherent
        running.faultless ⟨name, key, [⟨column, new⟩], []⟩
      have compared :=
        guarded.compareAndSwap_of_open running.isOpen name key column expected new written
      by_cases found : Table.cell? (Tables.table embedded.stores.current name) key column = expected
      · replace compared := compared.trans (if_pos found)
        cases result with
        | all wrote =>
            have left : after.stores.current =
                StoreCall.leave embedded.stores.current
                  (.compareAndSwap name key column expected new) := by
              rw [StoreCall.leave_of_expected found, wrote.stores]
              rfl
            have answered : CallResult _ embedded _ after :=
              .answered (wrote.running running.isOpen) left
            rw [StoreCall.answer_of_expected found] at answered
            exact ⟨_, _, (Action.bind_of_ok (opened name)).trans (Action.bind_of_ok compared),
              answered⟩
        | front wrote tooLong =>
            exact ⟨_, _, (Action.bind_of_ok (opened name)).trans (Action.bind_of_error compared),
              .refused (wrote.running running.isOpen) (StoreCall.not_fits tooLong)⟩
      · replace compared := compared.trans (if_neg found)
        have answered : CallResult _ embedded _ embedded :=
          .answered running (StoreCall.leave_of_unexpected found new).symm
        rw [StoreCall.answer_of_unexpected found] at answered
        exact ⟨_, _, (Action.bind_of_ok (opened name)).trans (Action.bind_of_ok compared), answered⟩
  | getSlice name key slice =>
      exact ⟨_, _, guarded.perform_getSlice running.isOpen name key slice, .answered running rfl⟩
  | getKeys name range slice selector =>
      exact ⟨_, _, guarded.perform_getKeys running.isOpen name range slice selector,
        .answered running rfl⟩
  | mutateMany mutations =>
      obtain ⟨outcome, after, written, result⟩ := running.mutateStores_result mutations.entries
      cases result with
      | all wrote =>
          exact ⟨_, _, Action.bind_of_ok written,
            .answered (wrote.running running.isOpen) (congrArg Generations.current wrote.stores)⟩
      | front wrote tooLong =>
          exact ⟨_, _, Action.bind_of_error written,
            .refused (wrote.running running.isOpen) (StoreCall.not_fits tooLong)⟩
  | clearStorage =>
      have result := clearStorage_result embedded
      rcases emptied : Embedded.clearStorage embedded with ⟨outcome, after⟩
      rw [emptied] at result
      cases result with
      | cleared device bytes position =>
          exact ⟨_, _, Action.bind_of_ok emptied,
            .answered ⟨.cleared running.coherent.placed bytes position,
              running.faultless.of_sameDevice device, running.isOpen⟩ rfl⟩
      | uncut faulty => exact absurd running.faultless faulty
      | cut device bytes position faulty => exact absurd running.faultless faulty

/-- Compaction changes no table, whether it succeeds or finds a row too long for a record. -/
theorem compact (running : embedded.Running changes) :
    ∃ outcome after recorded, Embedded.compact embedded = (outcome, after) ∧
      after.Running recorded ∧ after.stores = embedded.stores := by
  have result := compact_result embedded
  rcases compacted : Embedded.compact embedded with ⟨outcome, after⟩
  rw [compacted] at result
  cases result with
  | replaced device loggable bytes position =>
      exact ⟨_, _, _, rfl, ⟨.replaced running.coherent.tidy loggable bytes position,
        running.faultless.sibling.of_sameDevice device, running.isOpen⟩, rfl⟩
  | @kept failure used script =>
      have faultless : LogFile.Faultless { embedded.writer.file with script := used.script } :=
        running.faultless.of_sameDevice (.withScript script)
      exact ⟨_, _, _, rfl, ⟨running.coherent.keepScript used, faultless, running.isOpen⟩, rfl⟩
  | detached device loggable bytes faulty => exact absurd running.faultless faulty

end Running

/-- Closes the backend and opens the log it leaves; answers what replay has found. -/
def reopen (syncWrites : Bool) (embedded : Embedded) : Result ReplayStats × Embedded :=
  let (_, closed) := close embedded
  match Backing.reopenLog syncWrites closed with
  | .ok opened => (.ok opened.found, opened)
  | .error failure => (.error failure, closed)

/-- Opening the log anew finds all of it and gives tables that agree with the live ones. -/
theorem Running.reopen {embedded : Embedded} {changes : List RowChange}
    (running : embedded.Running changes) (syncWrites : Bool) :
    ∃ stats after, Embedded.reopen syncWrites embedded = (.ok stats, after) ∧
      stats.discarded = 0 ∧ after.Running changes ∧
      Tables.Agree after.stores.current embedded.stores.current := by
  have closed : close embedded = (.ok (), { embedded with closed := true }) := by
    have synced : onWriter (LogWriter.onFile LogFile.sync) { embedded with closed := true } =
        (.ok (), { embedded with closed := true }) :=
      onWriter_of_ok (LogWriter.onFile_of_ok running.faultless.sync)
    rw [close, Action.get_bind, running.isOpen, if_neg Bool.false_ne_true]
    exact (Action.bind_of_ok (Action.set_apply _ embedded)).trans synced
  let left : LogFile := { embedded.writer.file with position := 0 }
  have faultless : left.Faultless := running.faultless.seeked 0
  obtain ⟨opened, final, succeeded, coherent, stillFaultless, isOpen, found⟩ :=
    openLog_frames syncWrites faultless running.coherent.holds.loggable running.coherent.holds.bytes
  have reopened : Backing.reopenLog syncWrites { embedded with closed := true } = .ok opened := by
    rw [Backing.reopenLog, show logFile { embedded with closed := true } = embedded.writer.file
      from running.coherent.logFile]
    exact congrArg Prod.fst succeeded
  refine ⟨opened.found, opened, ?_, ?_, ⟨coherent, stillFaultless, isOpen⟩, ?_⟩
  · rw [Embedded.reopen, closed]
    simp only [reopened]
  · rw [found]
  · exact coherent.agree.symm.trans running.coherent.agree

end Embedded

end GraphStore
