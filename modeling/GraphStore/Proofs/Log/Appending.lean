import GraphStore.Log.Writer
import GraphStore.Proofs.Log.File
import GraphStore.Proofs.Log.Framing

/-!
Contract: appending under faults of the file.

Owns the relation between a writer and its file (`LogWriter.Holds`), what one append can
leave of it (`AppendResult`), and what replay finds after any number of appends
(`replay_appendAll`): the acknowledged records in order, and at most one more, which is
that of the append that poisoned the writer. How the file fails is left open: each step may
fail, and a failing write may leave any front of a frame behind.
-/

namespace GraphStore.LogWriter

open Log

/-- The file of the writer holds exactly the records of `changes`, and the writer stands
behind the last of them. -/
structure Holds (writer : LogWriter) (changes : List RowChange) : Prop where
  loggable : ∀ change ∈ changes, change.Loggable
  bytes : writer.file.bytes = frames 0 changes
  length : writer.length = writer.file.bytes.length
  position : writer.file.position = writer.length
  nextSequence : writer.nextSequence = UInt64.ofNat changes.length

/-- What an append can come to, from a writer that holds `changes`. -/
inductive AppendResult (changes : List RowChange) (change : RowChange) :
    Result Unit → LogWriter → Prop where
  | acknowledged {after : LogWriter} (holds : after.Holds (changes ++ [change]))
      (sound : after.poisoned = false) : AppendResult changes change (.ok ()) after
  | undone {failure : StoreError} {after : LogWriter} (holds : after.Holds changes)
      (sound : after.poisoned = false) : AppendResult changes change (.error failure) after
  | poisoned {failure : StoreError} {after : LogWriter} (kept : Nat)
      (loggable : change.Loggable) (poisoned : after.poisoned = true)
      (bytes : after.file.bytes = frames 0 changes ++
        (frame (UInt64.ofNat changes.length) change.encode).take kept) :
      AppendResult changes change (.error failure) after

/-! ### One append -/

theorem onFile_of_ok {α : Type} {step : Action LogFile α} {writer : LogWriter} {answer : α}
    {file : LogFile} (succeeded : step writer.file = (.ok answer, file)) :
    onFile step writer = (.ok answer, { writer with file := file }) := by
  rw [onFile, Action.within_apply, succeeded]

theorem onFile_of_error {α : Type} {step : Action LogFile α} {writer : LogWriter}
    {failure : StoreError} {file : LogFile} (failed : step writer.file = (.error failure, file)) :
    onFile step writer = (.error failure, { writer with file := file }) := by
  rw [onFile, Action.within_apply, failed]

/-- Writing a frame at the end appends all of it, or fails with a front of it appended. A
failed sync is the case of a front that is the whole frame. -/
theorem writeFrame_cases (frame : Bytes) {writer : LogWriter}
    (atEnd : writer.file.position = writer.file.bytes.length) :
    ∃ file : LogFile,
      (writeFrame frame writer = (.ok (), { writer with file := file }) ∧
        file.bytes = writer.file.bytes ++ frame ∧
        file.position = writer.file.position + frame.length) ∨
      ∃ kept, writeFrame frame writer = (.error LogFile.failure, { writer with file := file }) ∧
        file.bytes = writer.file.bytes ++ frame.take kept := by
  obtain ⟨script, _, written | ⟨kept, torn⟩⟩ := LogFile.write_cases frame writer.file
  · rw [writeFrame, Action.bind_of_ok (onFile_of_ok written), Action.get_bind]
    dsimp only
    split
    · obtain ⟨left, _, synced | unsynced⟩ :=
        LogFile.sync_cases ((writer.file.withScript script).written frame)
      · exact ⟨_, Or.inl ⟨onFile_of_ok synced, LogFile.bytes_written_end atEnd frame, rfl⟩⟩
      · refine ⟨_, Or.inr ⟨frame.length, onFile_of_error unsynced, ?_⟩⟩
        rw [List.take_length]
        exact LogFile.bytes_written_end atEnd frame
    · exact ⟨_, Or.inl ⟨rfl, LogFile.bytes_written_end atEnd frame, rfl⟩⟩
  · rw [writeFrame, Action.bind_of_error (onFile_of_error torn)]
    exact ⟨_, Or.inr ⟨kept, rfl, LogFile.bytes_written_end atEnd _⟩⟩

/-- Cutting back removes what was written behind the acknowledged records and moves the
position there, or poisons the writer. -/
theorem cutBack_cases {writer : LogWriter} {front back : Bytes}
    (grown : writer.file.bytes = front ++ back) (acknowledged : writer.length = front.length) :
    ∃ file : LogFile,
      (writer.cutBack = { writer with file := file } ∧ file.bytes = front ∧
        file.position = front.length) ∨
      (writer.cutBack = { writer with file := file, poisoned := true } ∧
        (file.bytes = front ++ back ∨ file.bytes = front)) := by
  obtain ⟨script, _, cut | uncut⟩ := LogFile.setLength_cases writer.length writer.file
  · let short := (writer.file.withScript script).resized writer.length
    have bytes : short.bytes = front := by
      show ((writer.file.withScript script).resized writer.length).bytes = front
      rw [acknowledged]
      exact LogFile.bytes_resized_of_append grown
    obtain ⟨left, _, moved | unmoved⟩ := LogFile.seek_cases writer.length short
    · refine ⟨(short.withScript left).seeked writer.length, Or.inl ⟨?_, bytes, acknowledged⟩⟩
      rw [cutBack, Action.bind_of_ok (onFile_of_ok cut), onFile_of_ok moved]
    · refine ⟨short.withScript left, Or.inr ⟨?_, Or.inr bytes⟩⟩
      rw [cutBack, Action.bind_of_ok (onFile_of_ok cut), onFile_of_error unmoved]
  · refine ⟨writer.file.withScript script, Or.inr ⟨?_, Or.inl grown⟩⟩
    rw [cutBack, Action.bind_of_error (onFile_of_error uncut)]

/-- A record more: the writer has counted the frame that was written behind the others. -/
theorem Holds.extend {writer : LogWriter} {changes : List RowChange} (holds : writer.Holds changes)
    {change : RowChange} (loggable : change.Loggable) {file : LogFile}
    (bytes : file.bytes = writer.file.bytes ++ frame writer.nextSequence change.encode)
    (position : file.position =
      writer.file.position + (frame writer.nextSequence change.encode).length) (appended : Nat) :
    LogWriter.Holds { writer with
      file := file
      length := writer.length + (frame writer.nextSequence change.encode).length
      nextSequence := writer.nextSequence + 1
      appended := appended } (changes ++ [change]) where
  loggable other member := by
    rcases List.mem_append.1 member with earlier | last
    · exact holds.loggable other earlier
    · rw [List.mem_singleton.1 last]
      exact loggable
  bytes := by
    rw [bytes, frames_append, holds.bytes, holds.nextSequence, UInt64.zero_add, frames, frames,
      List.append_nil]
  length := by rw [bytes, List.length_append, holds.length]
  position := by rw [position, holds.position]
  nextSequence := by
    rw [List.length_append, List.length_singleton, ofNat_succ, holds.nextSequence]

theorem append_of_poisoned {writer : LogWriter} (poisoned : writer.poisoned = true)
    (change : RowChange) : append change writer = (.error (refusal change.store), writer) := by
  rw [append]
  exact if_pos poisoned

/-- What one append comes to, whichever steps on the file fail. -/
theorem append_result {writer : LogWriter} {changes : List RowChange}
    (holds : writer.Holds changes) (sound : writer.poisoned = false) (change : RowChange) :
    AppendResult changes change (append change writer).1 (append change writer).2 := by
  rw [append, sound, if_neg Bool.false_ne_true]
  cases encoded : encodeFrame writer.nextSequence change with
  | error failure => exact .undone holds sound
  | ok bytes =>
      obtain ⟨loggable, rfl⟩ := loggable_of_encodeFrame encoded
      have atEnd : writer.file.position = writer.file.bytes.length :=
        holds.position.trans holds.length
      obtain ⟨file, ⟨written, bytes, position⟩ | ⟨kept, failed, bytes⟩⟩ :=
        writeFrame_cases (frame writer.nextSequence change.encode) atEnd
      · simp only [written]
        exact .acknowledged (holds.extend loggable bytes position _) sound
      · simp only [failed]
        obtain ⟨repaired, ⟨cut, front, back⟩ | ⟨poisoned, left⟩⟩ :=
          cutBack_cases
            (show LogFile.bytes (LogWriter.file { writer with file := file }) = _ from bytes)
            holds.length
        · rw [cut]
          refine .undone ⟨holds.loggable, front.trans holds.bytes, ?_, ?_, holds.nextSequence⟩ sound
          · exact holds.length.trans (congrArg List.length front.symm)
          · exact back.trans holds.length.symm
        · rw [poisoned]
          rcases left with whole | front
          · refine .poisoned kept loggable rfl ?_
            rw [whole, holds.bytes, holds.nextSequence]
          · refine .poisoned 0 loggable rfl ?_
            rw [front, holds.bytes, List.take_zero, List.append_nil]

/-! ### Refusals -/

theorem writeFrame_error {frame : Bytes} {writer after : LogWriter} {failure : StoreError}
    (failed : writeFrame frame writer = (.error failure, after)) : failure = LogFile.failure := by
  obtain ⟨script, _, written | ⟨kept, torn⟩⟩ := LogFile.write_cases frame writer.file
  · rw [writeFrame, Action.bind_of_ok (onFile_of_ok written), Action.get_bind] at failed
    dsimp only at failed
    split at failed
    · obtain ⟨left, _, synced | unsynced⟩ :=
        LogFile.sync_cases ((writer.file.withScript script).written frame)
      · rw [onFile_of_ok synced] at failed
        exact absurd (congrArg Prod.fst failed) nofun
      · rw [onFile_of_error unsynced] at failed
        exact (Except.error.inj (congrArg Prod.fst failed)).symm
    · exact absurd (congrArg Prod.fst failed) nofun
  · rw [writeFrame, Action.bind_of_error (onFile_of_error torn)] at failed
    exact (Except.error.inj (congrArg Prod.fst failed)).symm

/-- An append fails for a poisoned writer, for a row change without a frame, or with the device. -/
theorem append_error {change : RowChange} {writer after : LogWriter} {failure : StoreError}
    (failed : append change writer = (.error failure, after)) :
    failure = refusal change.store ∨ (∃ cause, failure = .invalidArgument cause) ∨
      failure = LogFile.failure := by
  rw [append] at failed
  split at failed
  · exact Or.inl (Except.error.inj (congrArg Prod.fst failed)).symm
  · refine Or.inr ?_
    cases encoded : encodeFrame writer.nextSequence change with
    | error cause =>
        rw [encoded] at failed
        rw [encodeFrame] at encoded
        split at encoded
        · cases encoded
        · have same := Except.error.inj (congrArg Prod.fst failed)
          exact Or.inl ⟨_, same.symm.trans (Except.error.inj encoded).symm⟩
    | ok bytes =>
        rw [encoded] at failed
        dsimp only at failed
        rcases written : writeFrame bytes writer with ⟨outcome, middle⟩
        rw [written] at failed
        cases outcome with
        | ok done => cases failed
        | error cause =>
            have same := Except.error.inj (congrArg Prod.fst failed)
            exact Or.inr (same.symm.trans (writeFrame_error written))

/-! ### Appends without faults -/

theorem writeFrame_of_faultless (frame : Bytes) {writer : LogWriter}
    (faultless : writer.file.Faultless) :
    writeFrame frame writer = (.ok (), { writer with file := writer.file.written frame }) := by
  rw [writeFrame, Action.bind_of_ok (onFile_of_ok (faultless.write frame)), Action.get_bind]
  dsimp only
  split
  · exact onFile_of_ok (faultless.written frame).sync
  · rfl

def counted (writer : LogWriter) (frame : Bytes) : LogWriter :=
  { writer with
    file := writer.file.written frame
    length := writer.length + frame.length
    nextSequence := writer.nextSequence + 1
    appended := writer.appended + 1 }

/-- On a faultless file every row change that has a frame is acknowledged, wherever the writer
stands. -/
theorem append_of_loggable {writer : LogWriter} (sound : writer.poisoned = false)
    (faultless : writer.file.Faultless) {change : RowChange} (loggable : change.Loggable) :
    append change writer =
      (.ok (), writer.counted (frame writer.nextSequence change.encode)) := by
  rw [append, sound, if_neg Bool.false_ne_true, encodeFrame_of_loggable _ loggable]
  simp only [writeFrame_of_faultless _ faultless]
  rw [counted, sound]

/-- A row change without a frame is refused, and nothing is written. -/
theorem append_of_not_loggable {writer : LogWriter} (sound : writer.poisoned = false)
    {change : RowChange} (tooLong : ¬ change.Loggable) :
    ∃ failure, append change writer = (.error failure, writer) := by
  rw [append, sound, if_neg Bool.false_ne_true]
  cases encoded : encodeFrame writer.nextSequence change with
  | error failure => exact ⟨failure, rfl⟩
  | ok bytes => exact absurd (loggable_of_encodeFrame encoded).1 tooLong

/-- A record behind the others is held with them. -/
theorem Holds.counted {writer : LogWriter} {changes : List RowChange}
    (holds : writer.Holds changes) {change : RowChange} (loggable : change.Loggable) :
    (writer.counted (frame writer.nextSequence change.encode)).Holds (changes ++ [change]) :=
  holds.extend loggable (LogFile.bytes_written_end (holds.position.trans holds.length) _) rfl _

/-! ### Many appends -/

/-- Appends row changes one after the other, whatever becomes of each. -/
def appendAll : List RowChange → LogWriter → List (Result Unit) × LogWriter
  | [], writer => ([], writer)
  | change :: changes, writer =>
    let (outcome, after) := append change writer
    let (outcomes, final) := appendAll changes after
    (outcome :: outcomes, final)

/-- The row changes whose appends have been acknowledged. -/
def acknowledged (changes : List RowChange) (outcomes : List (Result Unit)) : List RowChange :=
  ((changes.zip outcomes).filter fun attempt => attempt.2.isOk).map Prod.fst

/-- A poisoned writer refuses every append and leaves the file alone. -/
theorem appendAll_of_poisoned {writer : LogWriter} (poisoned : writer.poisoned = true)
    (changes : List RowChange) :
    appendAll changes writer =
      (changes.map fun change => .error (refusal change.store), writer) := by
  induction changes with
  | nil => rfl
  | cons change changes inductionHypothesis =>
      rw [appendAll, append_of_poisoned poisoned]
      simp only [inductionHypothesis, List.map_cons]

theorem acknowledged_of_refused (changes : List RowChange) :
    acknowledged changes (changes.map fun change => .error (refusal change.store)) = [] := by
  induction changes with
  | nil => rfl
  | cons change changes inductionHypothesis => exact inductionHypothesis

/-- The run of appends in which `row` poisons the writer. -/
def PoisonedBy (writer : LogWriter) (changes : List RowChange) (row : RowChange) : Prop :=
  ∃ earlier later, changes = earlier ++ row :: later ∧
    (appendAll earlier writer).2.poisoned = false ∧
    (append row (appendAll earlier writer).2).2.poisoned = true

theorem PoisonedBy.head {writer : LogWriter} (sound : writer.poisoned = false) {change : RowChange}
    (poisoned : (append change writer).2.poisoned = true) (changes : List RowChange) :
    PoisonedBy writer (change :: changes) change :=
  ⟨[], changes, rfl, sound, poisoned⟩

theorem PoisonedBy.cons {writer : LogWriter} {change row : RowChange} {changes : List RowChange}
    (poisons : PoisonedBy (append change writer).2 changes row) :
    PoisonedBy writer (change :: changes) row := by
  obtain ⟨earlier, later, rfl, sound, poisoned⟩ := poisons
  exact ⟨change :: earlier, later, rfl, sound, poisoned⟩

/-- What reading the log finds after appends: the recorded and the acknowledged row changes,
and one more only where it is the row change that poisoned the writer. -/
theorem readRecords_appendAll {writer : LogWriter} {recorded : List RowChange}
    (holds : writer.Holds recorded) (sound : writer.poisoned = false)
    (changes : List RowChange) :
    ∃ (extra : Option RowChange) (rest : Bytes),
      readRecords 0 (appendAll changes writer).2.file.bytes =
          (recorded ++ acknowledged changes (appendAll changes writer).1 ++ extra.toList, rest) ∧
        ∀ row ∈ extra, (appendAll changes writer).2.poisoned = true ∧
          PoisonedBy writer changes row := by
  induction changes generalizing writer recorded with
  | nil =>
      refine ⟨none, [], ?_, nofun⟩
      rw [appendAll, holds.bytes, readRecords_frames_self holds.loggable]
      simp [acknowledged]
  | cons change changes inductionHypothesis =>
      have result := append_result holds sound change
      rcases attempt : append change writer with ⟨outcome, after⟩
      have after_eq : (append change writer).2 = after := congrArg Prod.snd attempt
      rw [attempt] at result
      rw [appendAll, attempt]
      cases result with
      | acknowledged holdsMore stillSound =>
          obtain ⟨extra, rest, read, isPoisoning⟩ := inductionHypothesis holdsMore stillSound
          refine ⟨extra, rest, ?_, fun row member => ?_⟩
          · simpa [acknowledged, Except.isOk, Except.toBool] using read
          · obtain ⟨poisoned, poisons⟩ := isPoisoning row member
            exact ⟨poisoned, PoisonedBy.cons (after_eq ▸ poisons)⟩
      | undone holdsSame stillSound =>
          obtain ⟨extra, rest, read, isPoisoning⟩ := inductionHypothesis holdsSame stillSound
          refine ⟨extra, rest, ?_, fun row member => ?_⟩
          · simpa [acknowledged, Except.isOk, Except.toBool] using read
          · obtain ⟨poisoned, poisons⟩ := isPoisoning row member
            exact ⟨poisoned, PoisonedBy.cons (after_eq ▸ poisons)⟩
      | @poisoned failure _ kept loggable poisoned bytes =>
          -- from here on nothing is appended, so the file stays as the failed append left it
          obtain ⟨rest, read⟩ := readRecords_frames_torn holds.loggable loggable kept
          have none : acknowledged (change :: changes)
              (.error failure :: changes.map fun change => .error (refusal change.store)) = [] :=
            acknowledged_of_refused changes
          simp only [appendAll_of_poisoned poisoned, none, List.append_nil]
          refine ⟨if (frame (UInt64.ofNat recorded.length) change.encode).length ≤ kept
            then some change else Option.none, rest, ?_, fun row member => ?_⟩
          · rw [bytes, read]
            split <;> rfl
          · split at member
            · obtain rfl := Option.some.inj member
              exact ⟨poisoned, PoisonedBy.head sound (after_eq ▸ poisoned) changes⟩
            · exact absurd member nofun

/-- Whatever fails in a run of appends, replay applies the row changes that were there, those
that were acknowledged, in order, and at most one more: the one whose append has poisoned the
writer. A poisoned writer refuses what follows and leaves the file alone. -/
theorem replay_appendAll {writer : LogWriter} {recorded : List RowChange}
    (holds : writer.Holds recorded) (changes : List RowChange) :
    ∃ extra : Option RowChange,
      (readRecords 0 (appendAll changes writer).2.file.bytes).1 =
          recorded ++ acknowledged changes (appendAll changes writer).1 ++ extra.toList ∧
      (replay (appendAll changes writer).2.file.bytes).1 =
          applyAll (recorded ++ acknowledged changes (appendAll changes writer).1 ++ extra.toList)
            .empty ∧
      (∀ row ∈ extra, (appendAll changes writer).2.poisoned = true ∧
        PoisonedBy writer changes row) ∧
      ((appendAll changes writer).2.poisoned = true → ∀ later : List RowChange,
        appendAll later (appendAll changes writer).2 =
          (later.map fun change => .error (refusal change.store),
            (appendAll changes writer).2)) := by
  have found : ∃ (extra : Option RowChange) (rest : Bytes),
      readRecords 0 (appendAll changes writer).2.file.bytes =
          (recorded ++ acknowledged changes (appendAll changes writer).1 ++ extra.toList, rest) ∧
        ∀ row ∈ extra, (appendAll changes writer).2.poisoned = true ∧
          PoisonedBy writer changes row := by
    cases sound : writer.poisoned with
    | false => exact readRecords_appendAll holds sound changes
    | true =>
        refine ⟨none, [], ?_, nofun⟩
        simp only [appendAll_of_poisoned sound, acknowledged_of_refused]
        rw [holds.bytes, readRecords_frames_self holds.loggable]
        simp
  obtain ⟨extra, rest, read, isPoisoning⟩ := found
  refine ⟨extra, congrArg Prod.fst read, ?_, isPoisoning, appendAll_of_poisoned⟩
  rw [replay, read]

/-- A writer on an empty file whose second sync fails, as does the cut that should follow. -/
def failingWriter : LogWriter :=
  LogWriter.new ⟨[], 0, [.succeeds, .succeeds, .succeeds, .fails 0, .fails 0], none, true⟩ 0 0 true

theorem failingWriter_holds : failingWriter.Holds [] where
  loggable := nofun
  bytes := rfl
  length := rfl
  position := rfl
  nextSequence := rfl

/-- Two rows, of which the second poisons the writer above. -/
def poisoningRows : List RowChange :=
  [⟨"s", [1], [⟨[2], [3]⟩], []⟩, ⟨"s", [4], [⟨[2], [5]⟩], []⟩]

theorem replay_appendAll_failingWriter :
    failingWriter.Holds [] ∧ (appendAll poisoningRows failingWriter).2.poisoned = true ∧
      ∃ extra : Option RowChange,
        (readRecords 0 (appendAll poisoningRows failingWriter).2.file.bytes).1 =
          [] ++ acknowledged poisoningRows (appendAll poisoningRows failingWriter).1 ++
            extra.toList := by
  refine ⟨failingWriter_holds, by decide +kernel, ?_⟩
  obtain ⟨extra, read, _⟩ := replay_appendAll failingWriter_holds poisoningRows
  exact ⟨extra, read⟩

end GraphStore.LogWriter
