import GraphStore.Log.File
import GraphStore.Proofs.Action
import GraphStore.Proofs.Bytes

/-!
Contract: what the steps on a log's file can do.

Owns one case distinction for each step: what a success leaves, and what a failure leaves.
Every step may use up a part of the script; nothing else of the device changes. On a
faultless file (`Faultless`) every step succeeds.
-/

namespace GraphStore.LogFile

def withScript (file : LogFile) (script : List StepOutcome) : LogFile :=
  { file with script := script }

/-- The outcomes of steps are used up from the front. -/
theorem nextOutcome_cases (file : LogFile) : ∃ outcome script,
    script <:+ file.script ∧ file.nextOutcome = (outcome, file.withScript script) := by
  unfold nextOutcome
  split
  · exact ⟨.succeeds, file.script, List.suffix_refl _, rfl⟩
  · rename_i outcome script planned
    exact ⟨outcome, script, planned ▸ List.suffix_cons outcome script, rfl⟩

/-! ### Outcomes of the steps -/

theorem attempt_cases (file : LogFile) : ∃ script, script <:+ file.script ∧
    (attempt file = (.ok (), file.withScript script) ∨
      attempt file = (.error failure, file.withScript script)) := by
  obtain ⟨outcome, script, used, next⟩ := file.nextOutcome_cases
  refine ⟨script, used, ?_⟩
  unfold attempt
  rw [next]
  cases outcome with
  | succeeds => exact Or.inl rfl
  | fails written => exact Or.inr rfl

theorem sync_cases (file : LogFile) : ∃ script, script <:+ file.script ∧
    (sync file = (.ok (), file.withScript script) ∨
      sync file = (.error failure, file.withScript script)) :=
  attempt_cases file

/-- A write puts down all of its bytes, or fails with a first part of them put down. -/
theorem write_cases (data : Bytes) (file : LogFile) : ∃ script, script <:+ file.script ∧
    (write data file = (.ok (), (file.withScript script).written data) ∨
      ∃ kept, write data file =
        (.error failure, (file.withScript script).written (data.take kept))) := by
  obtain ⟨outcome, script, used, next⟩ := file.nextOutcome_cases
  refine ⟨script, used, ?_⟩
  unfold write
  rw [next]
  cases outcome with
  | succeeds =>
      dsimp only
      split
      · exact Or.inr ⟨_, rfl⟩
      · exact Or.inl rfl
  | fails written => exact Or.inr ⟨_, rfl⟩

/-- The file with its content cut to a length, or filled up to it. -/
def resized (file : LogFile) (length : Nat) : LogFile :=
  { file with bytes := file.bytes.take length ++ Bytes.zeros (length - file.bytes.length) }

/-- Setting the length takes effect or fails as planned, and uses up a front of the script. -/
theorem setLength_cases (length : Nat) (file : LogFile) : ∃ script, script <:+ file.script ∧
    (setLength length file = (.ok (), (file.withScript script).resized length) ∨
      setLength length file = (.error failure, file.withScript script)) := by
  obtain ⟨outcome, script, used, next⟩ := file.nextOutcome_cases
  refine ⟨script, used, ?_⟩
  unfold setLength
  rw [next]
  cases outcome with
  | succeeds =>
      dsimp only
      split
      · exact Or.inl rfl
      · exact Or.inr rfl
  | fails written => exact Or.inr rfl

def seeked (file : LogFile) (position : Nat) : LogFile := { file with position := position }

theorem seek_cases (position : Nat) (file : LogFile) : ∃ script, script <:+ file.script ∧
    (seek position file = (.ok (), (file.withScript script).seeked position) ∨
      seek position file = (.error failure, file.withScript script)) := by
  obtain ⟨script, used, succeeded | failed⟩ := attempt_cases file
  · exact ⟨script, used, Or.inl (Action.bind_of_ok succeeded)⟩
  · exact ⟨script, used, Or.inr (Action.bind_of_error failed)⟩

/-! ### Effects on the content -/

/-- A write at the end appends. -/
theorem overwrite_end (bytes data : Bytes) : overwrite bytes bytes.length data = bytes ++ data := by
  unfold overwrite
  split
  · rename_i empty
    rw [empty, List.append_nil]
  · rw [List.take_length, Nat.sub_self, Bytes.zeros, List.replicate_zero, List.append_nil,
      List.drop_eq_nil_of_le (by omega), List.append_nil]

/-- What is written at the end stands behind the bytes that were there. -/
theorem bytes_written_end {file : LogFile} (atEnd : file.position = file.bytes.length)
    (data : Bytes) : (file.written data).bytes = file.bytes ++ data := by
  show overwrite file.bytes file.position data = _
  rw [atEnd, overwrite_end]

/-- A write into an empty file stands behind a gap of zeros. -/
theorem bytes_written_empty {file : LogFile} (empty : file.bytes = []) {data : Bytes}
    (filled : data ≠ []) :
    (file.written data).bytes = Bytes.zeros file.position ++ data := by
  show overwrite file.bytes file.position data = _
  rw [overwrite, if_neg filled, empty, List.take_nil, List.drop_nil, List.append_nil,
    List.nil_append, List.length_nil, Nat.sub_zero]

/-- Cutting a content that has grown gives back what it was. -/
theorem bytes_resized_of_append {file : LogFile} {front back : Bytes}
    (grown : file.bytes = front ++ back) : (file.resized front.length).bytes = front := by
  show file.bytes.take front.length ++ Bytes.zeros (front.length - file.bytes.length) = front
  rw [grown, List.take_left, List.length_append, Nat.sub_eq_zero_of_le (by omega), Bytes.zeros,
    List.replicate_zero, List.append_nil]

theorem bytes_resized_zero (file : LogFile) : (file.resized 0).bytes = [] := by
  show file.bytes.take 0 ++ Bytes.zeros (0 - file.bytes.length) = []
  rw [Nat.zero_sub]
  rfl

/-! ### The device -/

/-- The file is on the device of another one, of whose script a front may be used up. -/
structure SameDevice (before after : LogFile) : Prop where
  script : after.script <:+ before.script
  sizeLimit : after.sizeLimit = before.sizeLimit
  shrinkable : after.shrinkable = before.shrinkable

namespace SameDevice

theorem refl (file : LogFile) : SameDevice file file := ⟨List.suffix_refl _, rfl, rfl⟩

theorem trans {first second third : LogFile} (earlier : SameDevice first second)
    (later : SameDevice second third) : SameDevice first third :=
  ⟨later.script.trans earlier.script, later.sizeLimit.trans earlier.sizeLimit,
    later.shrinkable.trans earlier.shrinkable⟩

theorem withScript {file : LogFile} {script : List StepOutcome} (used : script <:+ file.script) :
    SameDevice file (file.withScript script) :=
  ⟨used, rfl, rfl⟩

theorem written (file : LogFile) (data : Bytes) : SameDevice file (file.written data) :=
  ⟨List.suffix_refl _, rfl, rfl⟩

theorem seeked (file : LogFile) (position : Nat) : SameDevice file (file.seeked position) :=
  ⟨List.suffix_refl _, rfl, rfl⟩

end SameDevice

/-! ### Faultless files -/

/-- No step is planned to fail, there is no limit on the size, and the content may shrink. -/
structure Faultless (file : LogFile) : Prop where
  script : file.script = []
  sizeLimit : file.sizeLimit = none
  shrinkable : file.shrinkable = true

theorem faultless_ofBytes (bytes : Bytes) : (ofBytes bytes).Faultless := ⟨rfl, rfl, rfl⟩

namespace Faultless

variable {file : LogFile}

theorem nextOutcome (faultless : file.Faultless) : file.nextOutcome = (.succeeds, file) := by
  unfold LogFile.nextOutcome
  rw [faultless.script]

theorem attempt (faultless : file.Faultless) : LogFile.attempt file = (.ok (), file) := by
  unfold LogFile.attempt
  rw [faultless.nextOutcome]

theorem sync (faultless : file.Faultless) : LogFile.sync file = (.ok (), file) :=
  faultless.attempt

theorem write (faultless : file.Faultless) (data : Bytes) :
    LogFile.write data file = (.ok (), file.written data) := by
  unfold LogFile.write
  rw [faultless.nextOutcome]
  simp only [room, faultless.sizeLimit, Nat.lt_irrefl, if_false]

theorem setLength (faultless : file.Faultless) (length : Nat) :
    LogFile.setLength length file = (.ok (), file.resized length) := by
  have possible : file.canResize length = true := by
    unfold canResize
    rw [faultless.shrinkable, faultless.sizeLimit]
    simp
  unfold LogFile.setLength
  rw [faultless.nextOutcome]
  exact if_pos possible

theorem seek (faultless : file.Faultless) (position : Nat) :
    LogFile.seek position file = (.ok (), file.seeked position) :=
  Action.bind_of_ok faultless.attempt

theorem not_unsynced {failure : StoreError} {after : LogFile} (faultless : file.Faultless) :
    LogFile.sync file ≠ (.error failure, after) := by
  rw [faultless.sync]
  exact nofun

theorem not_uncut {failure : StoreError} {length : Nat} {after : LogFile}
    (faultless : file.Faultless) : LogFile.setLength length file ≠ (.error failure, after) := by
  rw [faultless.setLength]
  exact nofun

theorem not_unmoved {failure : StoreError} {position : Nat} {after : LogFile}
    (faultless : file.Faultless) : LogFile.seek position file ≠ (.error failure, after) := by
  rw [faultless.seek]
  exact nofun

/-- Other files of a device without faults are without faults. -/
theorem of_sameDevice {after : LogFile} (faultless : file.Faultless)
    (same : SameDevice file after) : after.Faultless where
  script := List.suffix_nil.1 (faultless.script ▸ same.script)
  sizeLimit := same.sizeLimit.trans faultless.sizeLimit
  shrinkable := same.shrinkable.trans faultless.shrinkable

theorem written (faultless : file.Faultless) (data : Bytes) : (file.written data).Faultless :=
  ⟨faultless.script, faultless.sizeLimit, faultless.shrinkable⟩

theorem seeked (faultless : file.Faultless) (position : Nat) : (file.seeked position).Faultless :=
  ⟨faultless.script, faultless.sizeLimit, faultless.shrinkable⟩

theorem resized (faultless : file.Faultless) (length : Nat) : (file.resized length).Faultless :=
  ⟨faultless.script, faultless.sizeLimit, faultless.shrinkable⟩

/-- A device whose planned faults are over. -/
theorem disarmed (faultless : file.Faultless) {faults : List StepOutcome} {after : LogFile}
    (device : SameDevice (file.withScript faults) after) : (after.withScript []).Faultless :=
  ⟨rfl, device.sizeLimit.trans faultless.sizeLimit, device.shrinkable.trans faultless.shrinkable⟩

theorem sibling (faultless : file.Faultless) : file.sibling.Faultless :=
  ⟨faultless.script, faultless.sizeLimit, rfl⟩

end Faultless

end GraphStore.LogFile
