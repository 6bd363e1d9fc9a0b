import GraphStore.Proofs.Log.Appending

/-!
Contract: the front of a log.

Owns what a log of records is when it is cut at any byte (`take_frames`): the records that end at
or before the cut, and behind them bytes that no replay reads. Owns also that a writer that has not
been poisoned holds what has been acknowledged (`Holds.appendAll`), and that without faults this is
every row change that has a frame (`acknowledged_of_faultless`).
-/

namespace GraphStore

namespace Log

def recordsEnd (changes : List RowChange) (count : Nat) : Nat :=
  (frames 0 (changes.take count)).length

/-! ### Lengths -/

/-- A log is as long as its records are, whatever their numbers. -/
theorem length_frames (sequence : UInt64) (changes : List RowChange) :
    (frames sequence changes).length = (frames 0 changes).length := by
  suffices same : ∀ left right, (frames left changes).length = (frames right changes).length from
    same sequence 0
  induction changes with
  | nil => exact fun _ _ => rfl
  | cons change changes inductionHypothesis =>
      intro left right
      rw [frames, frames, List.length_append, List.length_append, length_frame, length_frame,
        inductionHypothesis (left + 1) (right + 1)]

theorem recordsEnd_succ (change : RowChange) (changes : List RowChange) (count : Nat) :
    recordsEnd (change :: changes) (count + 1) =
      headerLength + change.encode.length + recordsEnd changes count := by
  rw [recordsEnd, List.take_succ_cons, frames, List.length_append, length_frame, length_frames]
  rfl

/-! ### Cuts -/

/-- A log that is cut where a record ends holds the records up to there. -/
theorem take_recordsEnd (changes : List RowChange) (count : Nat) :
    (frames 0 changes).take (recordsEnd changes count) = frames 0 (changes.take count) := by
  have split := frames_append 0 (changes.take count) (changes.drop count)
  rw [List.take_append_drop] at split
  rw [split, recordsEnd, List.take_left]

/-- The front of a log consists of the records that end at or before the cut and of bytes that
are no record, whatever number is expected. -/
theorem take_frames (sequence : UInt64) {changes : List RowChange}
    (loggable : ∀ change ∈ changes, change.Loggable) (cut : Nat) :
    ∃ count torn, (frames sequence changes).take cut =
        frames sequence (changes.take count) ++ torn ∧
      (∀ expected, readRecord? expected torn = none) ∧ count ≤ changes.length ∧
      ∀ number ≤ changes.length, number ≤ count ↔ recordsEnd changes number ≤ cut := by
  induction changes generalizing sequence cut with
  | nil =>
      refine ⟨0, [], List.take_nil, readRecord?_nil, Nat.le_refl _, fun number bound => ?_⟩
      rw [recordsEnd, List.take_nil]
      exact iff_of_true bound (Nat.zero_le _)
  | cons change changes inductionHypothesis =>
      obtain ⟨fits, othersFit⟩ := List.forall_mem_cons.1 loggable
      by_cases whole : headerLength + change.encode.length ≤ cut
      · obtain ⟨count, torn, split, unread, bound, ends⟩ := inductionHypothesis (sequence + 1)
          othersFit (cut - (headerLength + change.encode.length))
        refine ⟨count + 1, torn, ?_, unread, Nat.succ_le_succ bound, ?_⟩
        · rw [frames, List.take_append, length_frame, split,
            List.take_of_length_le (by rw [length_frame]; exact whole), List.take_succ_cons,
            frames, List.append_assoc]
        · intro number inside
          cases number with
          | zero => exact iff_of_true (Nat.zero_le _) (Nat.zero_le _)
          | succ number =>
              rw [recordsEnd_succ, Nat.add_le_add_iff_right,
                ends number (Nat.le_of_succ_le_succ inside)]
              omega
      · have torn : cut < (frame sequence change.encode).length := by
          rw [length_frame]
          omega
        refine ⟨0, (frame sequence change.encode).take cut, ?_,
          fun expected => readRecord?_torn expected sequence fits torn, Nat.zero_le _, ?_⟩
        · rw [frames, List.take_append_of_le_length (Nat.le_of_lt torn), List.take_zero]
          rfl
        · intro number inside
          cases number with
          | zero => exact iff_of_true (Nat.le_refl _) (Nat.zero_le _)
          | succ number =>
              rw [recordsEnd_succ]
              exact iff_of_false (Nat.not_succ_le_zero number) (by omega)

end Log

namespace LogWriter

open Log

/-! ### Writers -/

theorem acknowledged_cons (change : RowChange) (changes : List RowChange) (outcome : Result Unit)
    (outcomes : List (Result Unit)) :
    acknowledged (change :: changes) (outcome :: outcomes) =
      (if outcome.isOk then [change] else []) ++ acknowledged changes outcomes := by
  unfold acknowledged
  cases outcome <;> rfl

/-- A writer that is not poisoned at the end of a run of appends holds what it held before and
what has been acknowledged. -/
theorem Holds.appendAll {writer : LogWriter} {recorded : List RowChange}
    (holds : writer.Holds recorded) (changes : List RowChange)
    (sound : (appendAll changes writer).2.poisoned = false) :
    (appendAll changes writer).2.Holds
      (recorded ++ acknowledged changes (appendAll changes writer).1) := by
  induction changes generalizing writer recorded with
  | nil =>
      show writer.Holds (recorded ++ [])
      rw [List.append_nil]
      exact holds
  | cons change changes inductionHypothesis =>
      cases poisoned : writer.poisoned with
      | true =>
          rw [appendAll_of_poisoned poisoned] at sound
          exact absurd (sound.symm.trans poisoned) Bool.false_ne_true
      | false =>
          have result := append_result holds poisoned change
          rcases attempt : append change writer with ⟨outcome, after⟩
          rw [attempt] at result
          rw [LogWriter.appendAll, attempt] at sound ⊢
          cases result with
          | acknowledged holdsMore stillSound =>
              have final := inductionHypothesis holdsMore sound
              rw [List.append_assoc] at final
              rw [acknowledged_cons]
              exact final
          | undone holdsSame stillSound =>
              rw [acknowledged_cons]
              exact inductionHypothesis holdsSame sound
          | poisoned kept loggable nowPoisoned bytes =>
              dsimp only at sound
              rw [appendAll_of_poisoned nowPoisoned] at sound
              exact absurd (sound.symm.trans nowPoisoned) Bool.false_ne_true

/-- Without faults every row change that has a frame is acknowledged, and no writer is poisoned. -/
theorem acknowledged_of_faultless {writer : LogWriter} (sound : writer.poisoned = false)
    (faultless : writer.file.Faultless) (changes : List RowChange) :
    (appendAll changes writer).2.poisoned = false ∧
      acknowledged changes (appendAll changes writer).1 =
        changes.filter fun change => change.Loggable := by
  induction changes generalizing writer with
  | nil => exact ⟨sound, rfl⟩
  | cons change changes inductionHypothesis =>
      rw [LogWriter.appendAll]
      by_cases loggable : change.Loggable
      · rw [append_of_loggable sound faultless loggable]
        obtain ⟨stillSound, others⟩ :=
          @inductionHypothesis (writer.counted (frame writer.nextSequence change.encode)) sound
            (faultless.written _)
        refine ⟨stillSound, ?_⟩
        dsimp only
        rw [acknowledged_cons, others, List.filter_cons, if_pos (decide_eq_true loggable)]
        rfl
      · obtain ⟨failure, refused⟩ := append_of_not_loggable sound loggable
        rw [refused]
        obtain ⟨stillSound, others⟩ := inductionHypothesis sound faultless
        refine ⟨stillSound, ?_⟩
        dsimp only
        rw [acknowledged_cons, others, List.filter_cons,
          if_neg (Bool.eq_false_iff.1 (decide_eq_false loggable))]
        rfl

end LogWriter

end GraphStore
