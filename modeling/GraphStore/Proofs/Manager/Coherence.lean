import GraphStore.Manager.Embedded
import GraphStore.Proofs.Log.Appending
import GraphStore.Proofs.Tables

/-!
Contract: the log and the tables of the logging backend belong together.

Owns `Embedded.Coherent`: the log holds the records of a list of row changes, and these,
applied in order, give the live tables. Writing a row, opening and compaction keep it. What
emptying and compacting can come to under faults of the file is said by one relation each
(`ClearResult`, `CompactResult`).
-/

namespace GraphStore

/-! ### Generations of tables -/

namespace Generations

theorem tablesOf_number (generations : Generations) :
    generations.tablesOf generations.number = generations.current := by
  rw [tablesOf, number, List.getElem?_eq_none (Nat.le_refl _)]
  rfl

/-- A fresh reference reaches the current table of its store. -/
theorem table_refer (generations : Generations) (name : String) :
    generations.table (generations.refer name) = Tables.table generations.current name := by
  show Tables.table (generations.tablesOf generations.number) name = _
  rw [tablesOf_number]

/-- The generations with row changes applied to the current tables. -/
def applyAll (changes : List RowChange) (generations : Generations) : Generations :=
  { generations with current := Log.applyAll changes generations.current }

theorem applyAll_append (front back : List RowChange) (generations : Generations) :
    generations.applyAll (front ++ back) = (generations.applyAll front).applyAll back := by
  rw [applyAll, Log.applyAll_append]
  rfl

theorem change_refer (generations : Generations) (name : String) (key : Bytes)
    (additions : List Entry) (deletions : List Bytes) :
    generations.change (generations.refer name) key additions deletions =
      generations.applyAll [⟨name, key, additions, deletions⟩] := by
  have present : ¬ (generations.refer name).generation < generations.number := Nat.lt_irrefl _
  rw [change, if_neg present]
  show { generations with
    current := Tables.change (generations.tablesOf generations.number) name key additions
      deletions } = _
  rw [tablesOf_number]
  rfl

end Generations

namespace Embedded

open Log

/-- The log holds the records of `changes`, which give the live tables; the writer writes to
the file at the log's place and accepts appends. -/
structure Coherent (embedded : Embedded) (changes : List RowChange) : Prop where
  holds : embedded.writer.Holds changes
  sound : embedded.writer.poisoned = false
  agree : Tables.Agree (applyAll changes .empty) embedded.stores.current
  tidy : embedded.stores.current.Tidy
  placed : embedded.replacement = none

/-- The tables that opening the log anew would find. -/
def recovered (embedded : Embedded) : Tables := (replay embedded.logFile.bytes).1

namespace Coherent

variable {embedded : Embedded} {changes : List RowChange}

theorem logFile (coherent : embedded.Coherent changes) :
    embedded.logFile = embedded.writer.file := by
  rw [Embedded.logFile, coherent.placed]
  rfl

/-- The bytes of the log are the records of the changes. -/
theorem bytes (coherent : embedded.Coherent changes) :
    embedded.logFile.bytes = frames 0 changes := by
  rw [coherent.logFile, coherent.holds.bytes]

/-- Opening the log again gives the tables that are live. -/
theorem recovered_agree (coherent : embedded.Coherent changes) :
    Tables.Agree embedded.recovered embedded.stores.current := by
  rw [recovered, coherent.bytes, replay_frames coherent.holds.loggable]
  exact coherent.agree

end Coherent

/-- Only the content and the place of the writer count. -/
theorem Coherent.of_sameLog {embedded after : Embedded} {changes : List RowChange}
    (coherent : embedded.Coherent changes)
    (bytes : after.writer.file.bytes = embedded.writer.file.bytes)
    (position : after.writer.file.position = embedded.writer.file.position)
    (length : after.writer.length = embedded.writer.length)
    (nextSequence : after.writer.nextSequence = embedded.writer.nextSequence)
    (sound : after.writer.poisoned = false) (stores : after.stores = embedded.stores)
    (placed : after.replacement = none) : after.Coherent changes where
  holds := {
    loggable := coherent.holds.loggable
    bytes := bytes.trans coherent.holds.bytes
    length := length.trans (coherent.holds.length.trans (congrArg List.length bytes.symm))
    position := position.trans (coherent.holds.position.trans length.symm)
    nextSequence := nextSequence.trans coherent.holds.nextSequence }
  sound := sound
  agree := stores ▸ coherent.agree
  tidy := stores ▸ coherent.tidy
  placed := placed

/-! ### Opening -/

/-- Opening a log of records with bytes behind them that are no record finds the records, cuts the
file back to them and gives a coherent backend. -/
theorem openLog_frames_append (syncWrites : Bool) {file : LogFile} (faultless : file.Faultless)
    {changes : List RowChange} (loggable : ∀ change ∈ changes, change.Loggable) {torn : Bytes}
    (unread : ∀ expected, readRecord? expected torn = none)
    (bytes : file.bytes = frames 0 changes ++ torn) :
    ∃ embedded after, openLog syncWrites file = (.ok embedded, after) ∧
      embedded.Coherent changes ∧ embedded.writer.file.Faultless ∧ embedded.closed = false ∧
      embedded.found = ⟨changes.length, (frames 0 changes).length, torn.length⟩ ∧
      embedded.stores = .ofTables (applyAll changes .empty) ∧ after = embedded.writer.file := by
  let finish := (frames 0 changes).length
  obtain ⟨whole, sound, records, opened⟩ : ∃ whole : LogFile, whole.Faultless ∧
      whole.bytes = frames 0 changes ∧
      openLog syncWrites file = (.ok ⟨.ofTables (applyAll changes .empty),
        LogWriter.new (whole.seeked finish) finish changes.length syncWrites, false,
        ⟨changes.length, finish, torn.length⟩, none⟩, whole.seeked finish) := by
    rw [openLog, Action.get_bind, bytes, replay_frames_append loggable unread]
    dsimp only
    by_cases damaged : 0 < torn.length
    · have sound := faultless.resized finish
      refine ⟨file.resized finish, sound, LogFile.bytes_resized_of_append bytes, ?_⟩
      rw [if_pos damaged, Action.bind_of_ok (faultless.setLength _), Action.bind_of_ok sound.sync]
      exact Action.bind_of_ok (sound.seek _)
    · have none : torn = [] := List.eq_nil_of_length_eq_zero (Nat.eq_zero_of_not_pos damaged)
      refine ⟨file, faultless, by rw [bytes, none, List.append_nil], ?_⟩
      rw [if_neg damaged]
      exact Action.bind_of_ok (faultless.seek _)
  refine ⟨_, _, opened, ?_, sound.seeked _, rfl, rfl, rfl, rfl⟩
  exact {
    holds := ⟨loggable, records, congrArg List.length records.symm, rfl, rfl⟩
    sound := rfl
    agree := Tables.Agree.refl _
    tidy := Tables.tidy_empty.applyAll changes
    placed := rfl }

/-- Opening a log of records finds all of them, discards nothing and gives a coherent backend. -/
theorem openLog_frames (syncWrites : Bool) {file : LogFile} (faultless : file.Faultless)
    {changes : List RowChange} (loggable : ∀ change ∈ changes, change.Loggable)
    (bytes : file.bytes = frames 0 changes) :
    ∃ embedded after, openLog syncWrites file = (.ok embedded, after) ∧
      embedded.Coherent changes ∧ embedded.writer.file.Faultless ∧ embedded.closed = false ∧
      embedded.found = ⟨changes.length, (frames 0 changes).length, 0⟩ := by
  obtain ⟨embedded, after, opened, coherent, sound, isOpen, found, -, -⟩ :=
    openLog_frames_append syncWrites faultless loggable readRecord?_nil
      (bytes.trans (List.append_nil _).symm)
  exact ⟨embedded, after, opened, coherent, sound, isOpen, found⟩

/-! ### Writing a row -/

theorem onWriter_of_ok {α : Type} {step : Action LogWriter α} {embedded : Embedded} {answer : α}
    {writer : LogWriter} (succeeded : step embedded.writer = (.ok answer, writer)) :
    onWriter step embedded = (.ok answer, { embedded with writer := writer }) := by
  rw [onWriter, Action.within_apply, succeeded]

theorem onWriter_of_error {α : Type} {step : Action LogWriter α} {embedded : Embedded}
    {failure : StoreError} {writer : LogWriter}
    (failed : step embedded.writer = (.error failure, writer)) :
    onWriter step embedded = (.error failure, { embedded with writer := writer }) := by
  rw [onWriter, Action.within_apply, failed]

/-- The backend has logged and applied `rows`, behind the `changes` that its log held. -/
structure Wrote (before : Embedded) (changes rows : List RowChange) (after : Embedded) : Prop where
  coherent : after.Coherent (changes ++ rows)
  faultless : after.writer.file.Faultless
  closed : after.closed = before.closed
  stores : after.stores = before.stores.applyAll rows

theorem Wrote.none {embedded : Embedded} {changes : List RowChange}
    (coherent : embedded.Coherent changes) (faultless : embedded.writer.file.Faultless) :
    Wrote embedded changes [] embedded where
  coherent := (List.append_nil changes).symm ▸ coherent
  faultless := faultless
  closed := rfl
  stores := rfl

/-- Rows written after others are written behind them. -/
theorem Wrote.trans {before middle after : Embedded} {changes front back : List RowChange}
    (first : Wrote before changes front middle)
    (second : Wrote middle (changes ++ front) back after) :
    Wrote before changes (front ++ back) after where
  coherent := List.append_assoc changes front back ▸ second.coherent
  faultless := second.faultless
  closed := second.closed.trans first.closed
  stores := by
    rw [second.stores, first.stores, Generations.applyAll_append]

/-- Without faults a row change is logged and applied, whatever the log holds. -/
theorem writeRow_of_loggable {embedded : Embedded} (sound : embedded.writer.poisoned = false)
    (faultless : embedded.writer.file.Faultless) {change : RowChange}
    (loggable : change.Loggable) :
    Embedded.writeRow (embedded.stores.refer change.store) change.key change.additions
        change.deletions embedded =
      (.ok (), { embedded with
        writer := embedded.writer.counted (frame embedded.writer.nextSequence change.encode)
        stores := embedded.stores.applyAll [change] }) := by
  have appended := LogWriter.append_of_loggable sound faultless loggable
  refine (Action.bind_of_ok (onWriter_of_ok appended)).trans ?_
  show (Except.ok (), { embedded with
    writer := embedded.writer.counted (frame embedded.writer.nextSequence change.encode)
    stores := embedded.stores.change (embedded.stores.refer change.store) change.key
      change.additions change.deletions }) = _
  rw [Generations.change_refer]

theorem Coherent.counted {embedded : Embedded} {changes : List RowChange}
    (coherent : embedded.Coherent changes) {change : RowChange} (loggable : change.Loggable) :
    Coherent { embedded with
      writer := embedded.writer.counted (frame embedded.writer.nextSequence change.encode)
      stores := embedded.stores.applyAll [change] } (changes ++ [change]) where
  holds := coherent.holds.counted loggable
  sound := coherent.sound
  agree := by
    rw [applyAll_append]
    exact coherent.agree.applyAll [change]
  tidy := coherent.tidy.applyAll [change]
  placed := coherent.placed

/-- What writing rows can come to on a faultless file: all are written, or those before one that
is too long for a record. -/
inductive WriteResult (before : Embedded) (changes rows : List RowChange) :
    Result Unit → Embedded → Prop where
  | all {after : Embedded} (wrote : Wrote before changes rows after) :
      WriteResult before changes rows (.ok ()) after
  | front {failure : StoreError} {after : Embedded} {written : List RowChange}
      (wrote : Wrote before changes written after) (tooLong : ∃ row ∈ rows, ¬ row.Loggable) :
      WriteResult before changes rows (.error failure) after

/-- Rows behind others that have been written. -/
theorem WriteResult.behind {before middle after : Embedded} {changes front back : List RowChange}
    {outcome : Result Unit} (result : WriteResult middle (changes ++ front) back outcome after)
    (first : Wrote before changes front middle) :
    WriteResult before changes (front ++ back) outcome after := by
  cases result with
  | all second => exact .all (first.trans second)
  | front second tooLong =>
      obtain ⟨change, member, long⟩ := tooLong
      exact .front (first.trans second) ⟨change, List.mem_append_right _ member, long⟩

/-- On a faultless file a row is written, or refused because it is too long. -/
theorem writeRow_result {embedded : Embedded} {changes : List RowChange}
    (coherent : embedded.Coherent changes) (faultless : embedded.writer.file.Faultless)
    (change : RowChange) :
    ∃ outcome after, Embedded.writeRow (embedded.stores.refer change.store) change.key
        change.additions change.deletions embedded = (outcome, after) ∧
      WriteResult embedded changes [change] outcome after := by
  by_cases loggable : change.Loggable
  · exact ⟨_, _, writeRow_of_loggable coherent.sound faultless loggable,
      .all ⟨coherent.counted loggable, faultless.written _, rfl, rfl⟩⟩
  · obtain ⟨failure, refused⟩ := LogWriter.append_of_not_loggable coherent.sound loggable
    exact ⟨_, _, Action.bind_of_error (onWriter_of_error refused),
      .front (.none coherent faultless) ⟨change, List.mem_singleton_self change, loggable⟩⟩

/-! ### Emptying -/

/-- What emptying the log can come to: all of it, a failure that has left the file as it was,
and a failure behind the cut, with the position moved or not. -/
inductive ClearResult (embedded : Embedded) : Result Unit → Embedded → Prop where
  | cleared {file : LogFile} (device : LogFile.SameDevice embedded.writer.file file)
      (bytes : file.bytes = []) (position : file.position = 0) :
      ClearResult embedded (.ok ()) { embedded with
        stores := embedded.stores.clear
        writer := { embedded.writer with
          file := file, length := 0, nextSequence := 0, poisoned := false } }
  | uncut {script : List StepOutcome} (faulty : ¬ embedded.writer.file.Faultless) :
      ClearResult embedded (.error LogFile.failure) { embedded with
        writer := { embedded.writer with file := embedded.writer.file.withScript script } }
  | cut {file : LogFile} (device : LogFile.SameDevice embedded.writer.file file)
      (bytes : file.bytes = [])
      (position : file.position = embedded.writer.file.position ∨ file.position = 0)
      (faulty : ¬ embedded.writer.file.Faultless) :
      ClearResult embedded (.error LogFile.failure)
        { embedded with writer := { embedded.writer with file := file } }

theorem clearStorage_of_error {embedded : Embedded} {failure : StoreError} {writer : LogWriter}
    (failed : LogWriter.truncate embedded.writer = (.error failure, writer)) :
    clearStorage embedded = (.error failure, { embedded with writer := writer }) :=
  Action.bind_of_error (onWriter_of_error failed)

/-- Emptying the log comes to one of the cases of `ClearResult`. -/
theorem clearStorage_result (embedded : Embedded) :
    ClearResult embedded (clearStorage embedded).1 (clearStorage embedded).2 := by
  obtain ⟨script, used, cut | uncut⟩ := LogFile.setLength_cases 0 embedded.writer.file
  · let short := (embedded.writer.file.withScript script).resized 0
    have bytes : short.bytes = [] := LogFile.bytes_resized_zero _
    have device : LogFile.SameDevice embedded.writer.file short := ⟨used, rfl, rfl⟩
    obtain ⟨left, usedMore, moved | unmoved⟩ := LogFile.seek_cases 0 short
    · let sought := (short.withScript left).seeked 0
      have sameDevice : LogFile.SameDevice embedded.writer.file sought :=
        device.trans ((LogFile.SameDevice.withScript usedMore).trans (.seeked _ 0))
      obtain ⟨final, usedLast, synced | unsynced⟩ := LogFile.sync_cases sought
      · have emptied : LogWriter.truncate embedded.writer = (.ok (), { embedded.writer with
            file := sought.withScript final
            length := 0
            nextSequence := 0
            poisoned := false }) := by
          rw [LogWriter.truncate, Action.bind_of_ok (LogWriter.onFile_of_ok cut),
            Action.bind_of_ok (LogWriter.onFile_of_ok moved),
            Action.bind_of_ok (LogWriter.onFile_of_ok synced)]
          rfl
        have cleared : clearStorage embedded = (.ok (), { embedded with
            stores := embedded.stores.clear
            writer := { embedded.writer with
              file := sought.withScript final
              length := 0
              nextSequence := 0
              poisoned := false } }) :=
          Action.bind_of_ok (onWriter_of_ok emptied)
        rw [cleared]
        exact .cleared (sameDevice.trans (.withScript usedLast)) bytes rfl
      · have failed : LogWriter.truncate embedded.writer = (.error LogFile.failure,
            { embedded.writer with file := sought.withScript final }) := by
          rw [LogWriter.truncate, Action.bind_of_ok (LogWriter.onFile_of_ok cut),
            Action.bind_of_ok (LogWriter.onFile_of_ok moved),
            Action.bind_of_error (LogWriter.onFile_of_error unsynced)]
        rw [clearStorage_of_error failed]
        refine .cut (sameDevice.trans (.withScript usedLast)) bytes (Or.inr rfl) fun faultless => ?_
        exact (faultless.of_sameDevice sameDevice).not_unsynced unsynced
    · have failed : LogWriter.truncate embedded.writer = (.error LogFile.failure,
          { embedded.writer with file := short.withScript left }) := by
        rw [LogWriter.truncate, Action.bind_of_ok (LogWriter.onFile_of_ok cut),
          Action.bind_of_error (LogWriter.onFile_of_error unmoved)]
      rw [clearStorage_of_error failed]
      refine .cut (device.trans (.withScript usedMore)) bytes (Or.inl rfl) fun faultless => ?_
      exact (faultless.of_sameDevice device).not_unmoved unmoved
  · have failed : LogWriter.truncate embedded.writer = (.error LogFile.failure,
        { embedded.writer with file := embedded.writer.file.withScript script }) := by
      rw [LogWriter.truncate, Action.bind_of_error (LogWriter.onFile_of_error uncut)]
    rw [clearStorage_of_error failed]
    exact .uncut fun faultless => faultless.not_uncut uncut

theorem Coherent.cleared {embedded : Embedded} (placed : embedded.replacement = none)
    {file : LogFile} (bytes : file.bytes = []) (position : file.position = 0) :
    Coherent { embedded with
      stores := embedded.stores.clear
      writer := { embedded.writer with
        file := file, length := 0, nextSequence := 0, poisoned := false } } [] where
  holds := ⟨nofun, bytes, congrArg List.length bytes.symm, position, rfl⟩
  sound := rfl
  agree := Tables.Agree.refl _
  tidy := Tables.tidy_empty
  placed := placed

/-! ### Compacting -/

/-- Writing frames at the end of a file appends all of them, or fails on the way. -/
theorem writeFrames_cases (sequence : UInt64) (changes : List RowChange) {file : LogFile}
    (atEnd : file.position = file.bytes.length) :
    ∃ after, LogFile.SameDevice file after ∧
      ((writeFrames sequence changes file = (.ok (frames sequence changes).length, after) ∧
          (∀ change ∈ changes, change.Loggable) ∧
          after.bytes = file.bytes ++ frames sequence changes ∧
          after.position = after.bytes.length) ∨
        ∃ failure, writeFrames sequence changes file = (.error failure, after)) := by
  induction changes generalizing sequence file with
  | nil =>
      refine ⟨file, .refl file, Or.inl ⟨rfl, nofun, ?_, atEnd⟩⟩
      rw [frames, List.append_nil]
  | cons change changes inductionHypothesis =>
      cases encoded : encodeFrame sequence change with
      | error failure =>
          refine ⟨file, .refl file, Or.inr ⟨failure, ?_⟩⟩
          rw [writeFrames, encoded]
          exact Action.bind_of_error rfl
      | ok bytes =>
          obtain ⟨loggable, rfl⟩ := loggable_of_encodeFrame encoded
          have framed :
              (Action.ofResult (encodeFrame sequence change) : Action LogFile Bytes) file =
              (.ok (frame sequence change.encode), file) := by
            rw [encoded]
            rfl
          obtain ⟨script, used, written | ⟨kept, torn⟩⟩ :=
            LogFile.write_cases (frame sequence change.encode) file
          · let longer := (file.withScript script).written (frame sequence change.encode)
            have device : LogFile.SameDevice file longer :=
              (LogFile.SameDevice.withScript used).trans (.written _ _)
            have grown : longer.bytes = file.bytes ++ frame sequence change.encode :=
              LogFile.bytes_written_end atEnd _
            have stillAtEnd : longer.position = longer.bytes.length := by
              rw [grown, List.length_append, ← atEnd]
              rfl
            obtain ⟨after, sameDevice,
                ⟨others, othersLoggable, bytes, position⟩ | ⟨failure, failed⟩⟩ :=
              inductionHypothesis (sequence + 1) stillAtEnd
            · refine ⟨after, device.trans sameDevice, Or.inl ⟨?_, ?_, ?_, position⟩⟩
              · rw [writeFrames, Action.bind_of_ok framed, Action.bind_of_ok written,
                  Action.bind_of_ok others, frames, List.length_append]
                rfl
              · exact List.forall_mem_cons.2 ⟨loggable, othersLoggable⟩
              · rw [bytes, grown, frames, List.append_assoc]
            · refine ⟨after, device.trans sameDevice, Or.inr ⟨failure, ?_⟩⟩
              rw [writeFrames, Action.bind_of_ok framed, Action.bind_of_ok written,
                Action.bind_of_error failed]
          · refine ⟨(file.withScript script).written ((frame sequence change.encode).take kept),
              (LogFile.SameDevice.withScript used).trans (.written _ _),
              Or.inr ⟨LogFile.failure, ?_⟩⟩
            rw [writeFrames, Action.bind_of_ok framed, Action.bind_of_error torn]

/-- The snapshot is written as a whole, or its writing fails. -/
theorem writeSnapshot_cases (changes : List RowChange) {file : LogFile}
    (fresh : file.bytes = []) (atStart : file.position = 0) :
    ∃ after, LogFile.SameDevice file after ∧
      ((writeSnapshot changes file = (.ok (frames 0 changes).length, after) ∧
          (∀ change ∈ changes, change.Loggable) ∧ after.bytes = frames 0 changes) ∨
        ∃ failure, writeSnapshot changes file = (.error failure, after)) := by
  obtain ⟨script, used, created | uncreated⟩ := LogFile.attempt_cases file
  · have atEnd : (file.withScript script).position = (file.withScript script).bytes.length :=
      atStart.trans (congrArg List.length fresh).symm
    obtain ⟨after, device, ⟨written, loggable, bytes, _⟩ | ⟨failure, failed⟩⟩ :=
      writeFrames_cases 0 changes atEnd
    · obtain ⟨left, usedMore, synced | unsynced⟩ := LogFile.sync_cases after
      · refine ⟨after.withScript left, ?_, Or.inl ⟨?_, loggable, ?_⟩⟩
        · exact (LogFile.SameDevice.withScript used).trans (device.trans (.withScript usedMore))
        · rw [writeSnapshot, Action.bind_of_ok created, Action.bind_of_ok written,
            Action.bind_of_ok synced]
          rfl
        · exact bytes.trans (congrArg (· ++ frames 0 changes) fresh)
      · refine ⟨after.withScript left, ?_, Or.inr ⟨LogFile.failure, ?_⟩⟩
        · exact (LogFile.SameDevice.withScript used).trans (device.trans (.withScript usedMore))
        · rw [writeSnapshot, Action.bind_of_ok created, Action.bind_of_ok written,
            Action.bind_of_error unsynced]
    · refine ⟨after, (LogFile.SameDevice.withScript used).trans device, Or.inr ⟨failure, ?_⟩⟩
      rw [writeSnapshot, Action.bind_of_ok created, Action.bind_of_error failed]
  · refine ⟨file.withScript script, .withScript used, Or.inr ⟨LogFile.failure, ?_⟩⟩
    rw [writeSnapshot, Action.bind_of_error uncreated]

/-- What compacting can come to: a log of the live rows in place of the old one, a failure that
has left the log as it was, and a failure of the last step, which leaves the new log in place
and the writer with the old one. -/
inductive CompactResult (embedded : Embedded) : Result Nat → Embedded → Prop where
  | replaced {file : LogFile} (device : LogFile.SameDevice embedded.writer.file.sibling file)
      (loggable : ∀ change ∈ liveRows embedded.stores.current, change.Loggable)
      (bytes : file.bytes = frames 0 (liveRows embedded.stores.current))
      (position : file.position = file.bytes.length) :
      CompactResult embedded (.ok (liveRows embedded.stores.current).length) { embedded with
        writer := { embedded.writer with
          file := file
          length := file.bytes.length
          nextSequence := UInt64.ofNat (liveRows embedded.stores.current).length
          poisoned := false }
        replacement := none }
  | kept {failure : StoreError} {used : LogFile}
      (script : used.script <:+ embedded.writer.file.script) :
      CompactResult embedded (.error failure) (embedded.keepScript used)
  | detached {used : LogFile} (device : LogFile.SameDevice embedded.writer.file.sibling used)
      (loggable : ∀ change ∈ liveRows embedded.stores.current, change.Loggable)
      (bytes : used.bytes = frames 0 (liveRows embedded.stores.current))
      (faulty : ¬ embedded.writer.file.Faultless) :
      CompactResult embedded (.error LogFile.failure)
        { embedded.keepScript used with replacement := some used }

/-- Compacting comes to one of the cases of `CompactResult`. -/
theorem compact_result (embedded : Embedded) :
    CompactResult embedded (compact embedded).1 (compact embedded).2 := by
  cases closed : embedded.closed with
  | true =>
      have refused : compact embedded = (.error (.closed .embeddedManager), embedded) := by
        rw [compact]
        refine Action.bind_of_error ?_
        rw [ensureOpen, closed]
        rfl
      rw [refused]
      exact .kept (List.suffix_refl embedded.writer.file.script)
  | false =>
      have admitted : ensureOpen embedded = (.ok (), embedded) := by
        rw [ensureOpen, closed]
        rfl
      rw [compact, Action.bind_of_ok admitted]
      obtain ⟨file, device, ⟨snapshot, loggable, bytes⟩ | ⟨failure, failed⟩⟩ :=
        writeSnapshot_cases (liveRows embedded.stores.current)
          (show embedded.writer.file.sibling.bytes = [] from rfl) rfl
      · obtain ⟨script, used, renamed | unrenamed⟩ := LogFile.attempt_cases file
        · let placed := file.withScript script
          have placedDevice : LogFile.SameDevice embedded.writer.file.sibling placed :=
            device.trans (.withScript used)
          obtain ⟨left, usedMore, moved | unmoved⟩ :=
            LogFile.seek_cases (frames 0 (liveRows embedded.stores.current)).length placed
          · simp only [snapshot, renamed,
              show LogFile.seek _ (file.withScript script) = _ from moved]
            rw [← bytes]
            exact .replaced (placedDevice.trans ((LogFile.SameDevice.withScript usedMore).trans
              (.seeked _ _))) loggable bytes rfl
          · simp only [snapshot, renamed,
              show LogFile.seek _ (file.withScript script) = _ from unmoved]
            refine .detached (placedDevice.trans (.withScript usedMore)) loggable bytes
              fun faultless => ?_
            exact (faultless.sibling.of_sameDevice placedDevice).not_unmoved unmoved
        · simp only [snapshot, unrenamed]
          exact .kept (used.trans device.script)
      · simp only [failed]
        exact .kept device.script

/-- A log of the live rows belongs to the tables, whatever log it replaces. -/
theorem Coherent.replaced {embedded : Embedded} (tidy : embedded.stores.current.Tidy)
    (loggable : ∀ change ∈ liveRows embedded.stores.current, change.Loggable) {file : LogFile}
    (bytes : file.bytes = frames 0 (liveRows embedded.stores.current))
    (position : file.position = file.bytes.length) :
    Coherent { embedded with
      writer := { embedded.writer with
        file := file
        length := file.bytes.length
        nextSequence := UInt64.ofNat (liveRows embedded.stores.current).length
        poisoned := false }
      replacement := none } (liveRows embedded.stores.current) where
  holds := ⟨loggable, bytes, rfl, position, rfl⟩
  sound := rfl
  agree := applyAll_liveRows tidy
  tidy := tidy
  placed := rfl

/-- What is left of the script does not matter. -/
theorem Coherent.keepScript {embedded : Embedded} {changes : List RowChange}
    (coherent : embedded.Coherent changes) (used : LogFile) :
    (embedded.keepScript used).Coherent changes :=
  coherent.of_sameLog rfl rfl rfl rfl coherent.sound rfl coherent.placed

end Embedded

end GraphStore
