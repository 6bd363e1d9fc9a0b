import GraphStore.Proofs.Log.Cutting
import GraphStore.Proofs.Manager.Coherence

/-!
Contract: opening a log that has been cut at any byte.

Owns that opening recovers just the records that end at or before the cut, cuts the file back to
them, and goes on behind them as if nothing else had ever been written (`openLog_take`).
-/

namespace GraphStore.Embedded

open Log LogWriter

/-- The file of a writer that has not been poisoned holds what the writer held and what has been
acknowledged since: opening finds all of it and nothing else. -/
theorem openLog_appendAll (syncWrites : Bool) {writer : LogWriter} {recorded : List RowChange}
    (holds : writer.Holds recorded) {changes : List RowChange}
    (sound : (appendAll changes writer).2.poisoned = false) :
    ∃ opened, openLog syncWrites (.ofBytes (appendAll changes writer).2.file.bytes) =
        (.ok opened, opened.writer.file) ∧
      opened.stores = .ofTables
        (applyAll (recorded ++ acknowledged changes (appendAll changes writer).1) .empty) ∧
      opened.found.discarded = 0 := by
  have final := holds.appendAll changes sound
  obtain ⟨opened, after, success, -, -, -, found, stores, rfl⟩ :=
    openLog_frames_append syncWrites (LogFile.faultless_ofBytes _) final.loggable readRecord?_nil
      (final.bytes.trans (List.append_nil _).symm)
  exact ⟨opened, success, stores, congrArg ReplayStats.discarded found⟩

/-- A log that has come about through acknowledged appends, cut at any byte. Opening recovers the
records that end at or before the cut, in order, and no others; it reports them, cuts the file to
them and stands behind them. Whatever is appended then and acknowledged, with any faults of the
device, is found behind them by a later opening, which discards nothing; without faults that is
every row change that has a frame. -/
theorem openLog_take {writer : LogWriter} {earlier : List RowChange} (holds : writer.Holds earlier)
    {calls : List RowChange} (sound : (appendAll calls writer).2.poisoned = false) {cut : Nat}
    (within : cut ≤ (appendAll calls writer).2.file.bytes.length) (syncWrites : Bool) :
    let log := (appendAll calls writer).2.file.bytes
    let recorded := earlier ++ acknowledged calls (appendAll calls writer).1
    log = frames 0 recorded ∧ ∃ count ≤ recorded.length,
      (∀ number ≤ recorded.length, number ≤ count ↔ recordsEnd recorded number ≤ cut) ∧
      ∃ opened, openLog syncWrites (.ofBytes (log.take cut)) = (.ok opened, opened.writer.file) ∧
        opened.stores = .ofTables (applyAll (recorded.take count) .empty) ∧
        opened.found = ⟨count, recordsEnd recorded count, cut - recordsEnd recorded count⟩ ∧
        opened.writer.file.bytes = log.take (recordsEnd recorded count) ∧
        opened.writer.Holds (recorded.take count) ∧
        ∀ (script : List StepOutcome) (more : List RowChange) (syncLater : Bool),
          let ran := appendAll more
            { opened.writer with file := opened.writer.file.withScript script }
          (ran.2.poisoned = false → ∃ reopened,
            openLog syncLater (.ofBytes ran.2.file.bytes) = (.ok reopened, reopened.writer.file) ∧
              reopened.stores = .ofTables
                (applyAll (recorded.take count ++ acknowledged more ran.1) .empty) ∧
              reopened.found.discarded = 0) ∧
          (script = [] → ran.2.poisoned = false ∧
            acknowledged more ran.1 = more.filter fun change => change.Loggable) := by
  have final := holds.appendAll calls sound
  generalize earlier ++ acknowledged calls (appendAll calls writer).1 = recorded at final ⊢
  obtain ⟨count, torn, split, unread, bound, ends⟩ := take_frames 0 final.loggable cut
  have kept : ∀ change ∈ recorded.take count, change.Loggable := fun change member =>
    final.loggable change (List.mem_of_mem_take member)
  obtain ⟨opened, after, success, coherent, faultless, -, found, stores, rfl⟩ :=
    openLog_frames_append syncWrites (LogFile.faultless_ofBytes _) kept unread split
  rw [final.bytes] at within ⊢
  have tornLength : torn.length = cut - recordsEnd recorded count := by
    have whole := congrArg List.length split
    rw [List.length_take, List.length_append, Nat.min_eq_left within] at whole
    rw [recordsEnd]
    omega
  refine ⟨rfl, count, bound, ends, opened, success, stores, ?_, ?_, coherent.holds, ?_⟩
  · rw [found, List.length_take, Nat.min_eq_left bound, tornLength]
    rfl
  · rw [coherent.holds.bytes, take_recordsEnd]
  · intro script more syncLater
    let rearmed : LogWriter :=
      { opened.writer with file := opened.writer.file.withScript script }
    have holds : rearmed.Holds (recorded.take count) :=
      ⟨coherent.holds.loggable, coherent.holds.bytes, coherent.holds.length,
        coherent.holds.position, coherent.holds.nextSequence⟩
    refine ⟨openLog_appendAll syncLater holds, fun noFaults => ?_⟩
    have undisturbed : rearmed.file.Faultless :=
      ⟨noFaults, faultless.sizeLimit, faultless.shrinkable⟩
    have usable : rearmed.poisoned = false := coherent.sound
    exact acknowledged_of_faultless usable undisturbed more

/-- A writer on an empty file whose second write fails on the way. -/
def interruptedWriter : LogWriter :=
  LogWriter.new ⟨[], 0, [.succeeds, .fails 5], none, true⟩ 0 0 false

/-- Three rows, of which the writer above does not acknowledge the second. -/
def interruptedCalls : List RowChange :=
  [⟨"s", [1], [⟨[2], [3]⟩], []⟩, ⟨"s", [2], [⟨[2], [4]⟩], []⟩, ⟨"t", [3], [⟨[2], [5]⟩], [[7]]⟩]

/-- The log holds two records; the cut is in the payload of the second. -/
theorem openLog_take_interruptedCalls :
    interruptedWriter.Holds [] ∧
      (appendAll interruptedCalls interruptedWriter).2.poisoned = false ∧
      (appendAll interruptedCalls interruptedWriter).2.file.bytes.length = 54 ∧
      ∃ opened, openLog true
          (.ofBytes ((appendAll interruptedCalls interruptedWriter).2.file.bytes.take 50)) =
            (.ok opened, opened.writer.file) ∧
        opened.stores = .ofTables (applyAll (interruptedCalls.take 1) .empty) ∧
        opened.found = ⟨1, 26, 24⟩ := by
  have empty : interruptedWriter.Holds [] := ⟨nofun, rfl, rfl, rfl, rfl⟩
  have sound : (appendAll interruptedCalls interruptedWriter).2.poisoned = false := by
    decide +kernel
  have length : (appendAll interruptedCalls interruptedWriter).2.file.bytes.length = 54 := by
    decide +kernel
  refine ⟨empty, sound, length, ?_⟩
  obtain ⟨-, count, bound, ends, opened, success, stores, found, -⟩ :=
    openLog_take empty sound (Nat.le_trans (by decide : 50 ≤ 54) (Nat.le_of_eq length.symm)) true
  have recorded :
      [] ++ acknowledged interruptedCalls (appendAll interruptedCalls interruptedWriter).1 =
      [interruptedCalls[0], interruptedCalls[2]] := by
    decide +kernel
  rw [recorded] at bound ends stores found
  have one : count = 1 := by
    have first := (ends 1 (by decide)).2 (by decide +kernel)
    have second := mt (ends 2 (by decide)).1 (by decide +kernel)
    omega
  subst one
  exact ⟨opened, success, stores, found.trans (by decide +kernel)⟩

end GraphStore.Embedded
