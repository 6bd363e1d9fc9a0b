import GraphStore.Checksum
import GraphStore.Proofs.Log.Framing

/-!
Contract: a log in which one byte has changed.

Owns that a record is not read when one byte behind its length field is another one
(`readRecord?_of_changed`): the sequence number is compared as a whole, and the checksum tells the
payloads apart. So replay applies the records in front of the changed one and stops there
(`replay_of_changed`).
-/

namespace GraphStore.Log

/-! ### Reading what stands at the front -/

/-- What a record is: as many bytes as its length field asks for, the expected number, the checksum
of number and payload, and a payload that decodes. -/
theorem readRecord?_eq_some_iff {sequence : UInt64} {log : Bytes} {change : RowChange}
    {length : Nat} :
    readRecord? sequence log = some (change, length) ↔
      headerLength + length ≤ log.length ∧ (part log 0 4).toNat = length ∧
        (part log 4 8).toNat = sequence.toNat ∧
        (part log 12 4).toNat =
          (Checksum.ofRecord sequence (part log headerLength length)).toNat ∧
        RowChange.decode (part log headerLength length) = .ok change := by
  constructor
  · intro read
    rw [readRecord?] at read
    split at read
    · cases read
    · dsimp only at read
      split at read
      · cases read
      · rename_i whole
        split at read
        · cases read
        · rename_i numbered
          split at read
          · cases read
          · rename_i intact
            split at read
            · rename_i decoded
              obtain ⟨rfl, rfl⟩ := Prod.mk.inj (Option.some.inj read)
              exact ⟨by omega, rfl, Decidable.not_not.1 numbered, Decidable.not_not.1 intact,
                decoded⟩
            · cases read
  · rintro ⟨whole, rfl, numbered, intact, decoded⟩
    rw [readRecord?, if_neg (by omega)]
    dsimp only
    rw [if_neg (by omega), if_neg (not_not_intro numbered), if_neg (not_not_intro intact), decoded]

/-- What follows a record does not keep it from being read. -/
theorem readRecord?_append {sequence : UInt64} {record : Bytes} {change : RowChange} {length : Nat}
    (read : readRecord? sequence record = some (change, length)) (rest : Bytes) :
    readRecord? sequence (record ++ rest) = some (change, length) := by
  obtain ⟨whole, lengthField, numbered, intact, decoded⟩ := readRecord?_eq_some_iff.1 read
  have header : headerLength ≤ record.length := by omega
  rw [headerLength] at header
  refine readRecord?_eq_some_iff.2 ⟨?_, ?_, ?_, ?_, ?_⟩
  · rw [List.length_append]
    omega
  · rw [part_append_left (by omega), lengthField]
  · rw [part_append_left (by omega), numbered]
  · rw [part_append_left (by omega), part_append_left whole, intact]
  · rw [part_append_left whole, decoded]

/-- Behind a log that is read to its end, reading goes on with the next number. -/
theorem readRecords_append {sequence : UInt64} {front : Bytes} {earlier : List RowChange}
    (read : readRecords sequence front = (earlier, [])) (rest : Bytes) :
    readRecords sequence (front ++ rest) =
      (earlier ++ (readRecords (sequence + UInt64.ofNat earlier.length) rest).1,
        (readRecords (sequence + UInt64.ofNat earlier.length) rest).2) := by
  induction earlier generalizing sequence front with
  | nil =>
      cases first : readRecord? sequence front with
      | none =>
          rw [readRecords_of_none first] at read
          obtain ⟨-, rfl⟩ := Prod.mk.inj read
          simp
      | some found =>
          rw [readRecords_of_some first] at read
          exact absurd (Prod.mk.inj read).1 (List.cons_ne_nil _ _)
  | cons change changes inductionHypothesis =>
      cases first : readRecord? sequence front with
      | none =>
          rw [readRecords_of_none first] at read
          exact absurd (Prod.mk.inj read).1.symm (List.cons_ne_nil _ _)
      | some found =>
          obtain ⟨head, length⟩ := found
          have whole := (readRecord?_eq_some_iff.1 first).1
          rw [readRecords_of_some first] at read
          obtain ⟨same, atEnd⟩ := Prod.mk.inj read
          obtain ⟨rfl, others⟩ := List.cons.inj same
          rw [readRecords_of_some (readRecord?_append first rest),
            List.drop_append_of_le_length whole,
            inductionHypothesis (Prod.ext others atEnd), List.length_cons, sequence_succ]
          rfl

/-! ### One byte of a byte string -/

section Changed

variable {bytes : Bytes} {position : Nat} {byte : UInt8}

theorem toNat_set_ne (within : position < bytes.length) (changed : bytes[position]? ≠ some byte) :
    Bytes.toNat (bytes.set position byte) ≠ bytes.toNat := by
  intro same
  have unchanged := Bytes.eq_of_toNat List.length_set same
  rw [← unchanged, List.getElem?_set_self within] at changed
  exact changed rfl

theorem ofRecord_set_ne (sequence : UInt64) (within : position < bytes.length)
    (changed : bytes[position]? ≠ some byte) :
    Checksum.ofRecord sequence (bytes.set position byte) ≠ Checksum.ofRecord sequence bytes := by
  have different : byte ≠ bytes[position] := by
    rintro rfl
    exact changed (List.getElem?_eq_getElem within)
  have before := List.take_append_drop position bytes
  rw [List.drop_eq_getElem_cons within] at before
  rw [List.set_eq_take_append_cons_drop, if_pos within]
  conv => rhs; rw [← before]
  rw [Checksum.ofRecord, Checksum.ofRecord, ← List.append_assoc, ← List.append_assoc]
  exact Checksum.crc32_ne_of_changed different _ _

/-! ### Parts of a changed byte string -/

theorem part_set_of_lt {skipped : Nat} (before : position < skipped) (count : Nat) :
    part (bytes.set position byte) skipped count = part bytes skipped count := by
  rw [part, part, List.drop_set_of_lt before]

theorem part_set_of_le {skipped count : Nat} (behind : skipped + count ≤ position) :
    part (bytes.set position byte) skipped count = part bytes skipped count := by
  rw [part, part, List.drop_set, if_neg (by omega), List.take_set_of_le (by omega)]

theorem part_set {skipped : Nat} (within : skipped ≤ position) (count : Nat) :
    part (bytes.set position byte) skipped count =
      (part bytes skipped count).set (position - skipped) byte := by
  rw [part, part, List.drop_set, if_neg (by omega), List.take_set]

/-- The changed byte is another one in the part that holds it. -/
theorem part_changed (skipped count : Nat) (front : skipped ≤ position)
    (back : position < skipped + count) (within : position < bytes.length)
    (changed : bytes[position]? ≠ some byte) :
    position - skipped < (part bytes skipped count).length ∧
      (part bytes skipped count)[position - skipped]? ≠ some byte := by
  constructor
  · rw [part, List.length_take, List.length_drop]
    omega
  · rw [part, List.getElem?_take_of_lt (by omega), List.getElem?_drop, Nat.add_sub_of_le front]
    exact changed

end Changed

/-! ### Records -/

/-- A record whose sequence number, checksum or payload has one other byte is not read. -/
theorem readRecord?_of_changed {sequence : UInt64} {record : Bytes} {change : RowChange}
    {position : Nat} {byte : UInt8}
    (valid : readRecord? sequence record = some (change, record.length - headerLength))
    (behindLength : 4 ≤ position) (within : position < record.length)
    (changed : record[position]? ≠ some byte) (rest : Bytes) :
    readRecord? sequence (record.set position byte ++ rest) = none := by
  obtain ⟨whole, lengthField, numbered, intact, -⟩ := readRecord?_eq_some_iff.1 valid
  have header := headerLength_le_of_readRecord? valid
  have sixteen : headerLength = 16 := rfl
  refine Option.eq_none_iff_forall_not_mem.2 fun ⟨found, length⟩ read => ?_
  obtain ⟨-, lengthField', numbered', intact', -⟩ := readRecord?_eq_some_iff.1 read
  -- the length field is as before, so the same bytes are taken for the payload
  rw [part_append_left (by rw [List.length_set]; omega), part_set_of_le (by omega),
    lengthField] at lengthField'
  subst lengthField'
  rw [part_append_left (by rw [List.length_set]; omega)] at numbered'
  rw [part_append_left (by rw [List.length_set]; omega),
    part_append_left (by rw [List.length_set]; exact whole)] at intact'
  by_cases inNumber : position < 12
  · obtain ⟨inside, other⟩ := part_changed 4 8 behindLength (by omega) within changed
    rw [part_set behindLength] at numbered'
    exact toNat_set_ne inside other (numbered'.trans numbered.symm)
  · by_cases inChecksum : position < headerLength
    · obtain ⟨inside, other⟩ := part_changed 12 4 (by omega) (by omega) within changed
      rw [part_set (by omega), part_set_of_lt inChecksum] at intact'
      exact toNat_set_ne inside other (intact'.trans intact.symm)
    · obtain ⟨inside, other⟩ := part_changed headerLength (record.length - headerLength)
        (by omega) (by omega) within changed
      rw [part_set_of_le (by omega), part_set (by omega), intact] at intact'
      exact ofRecord_set_ne sequence inside other (UInt32.toNat_inj.1 intact'.symm)

/-! ### Logs -/

/-- Replay of a log of valid records in which one byte of a sequence number, a checksum or a
payload has another value applies the records before the changed one and stops there. -/
theorem replay_of_changed {front record back : Bytes} {earlier : List RowChange}
    {change : RowChange} {position : Nat} {byte : UInt8}
    (before : readRecords 0 front = (earlier, []))
    (valid : readRecord? (UInt64.ofNat earlier.length) record =
      some (change, record.length - headerLength))
    (behindLength : 4 ≤ position) (within : position < record.length)
    (changed : record[position]? ≠ some byte) :
    replay ((front ++ record ++ back).set (front.length + position) byte) =
      (applyAll earlier .empty,
        ⟨earlier.length, front.length, record.length + back.length⟩) := by
  have log : (front ++ record ++ back).set (front.length + position) byte =
      front ++ (record.set position byte ++ back) := by
    rw [List.append_assoc, List.set_append_right _ _ (Nat.le_add_right _ _),
      Nat.add_sub_cancel_left, List.set_append_left _ _ within]
  have stops := readRecord?_of_changed valid behindLength within changed back
  rw [log, replay, readRecords_append before, UInt64.zero_add, readRecords_of_none stops,
    List.append_nil]
  dsimp only
  rw [List.length_append, List.length_append, List.length_set, Nat.add_sub_cancel]

def firstRecord : RowChange := ⟨"s", [1], [⟨[2], [3]⟩], []⟩

def secondRecord : RowChange := ⟨"s", [2], [⟨[2], [4]⟩], [[7]]⟩

def thirdRecord : RowChange := ⟨"t", [3], [⟨[2], [5]⟩], []⟩

/-- The value in the second of three records is another one: the first record is replayed, the
second and the third are not. -/
theorem replay_changed_value :
    (frames 0 [firstRecord, secondRecord, thirdRecord])[53]? = some 4 ∧
      replay ((frames 0 [firstRecord, secondRecord, thirdRecord]).set 53 9) =
        (applyAll [firstRecord] .empty, ⟨1, 26, 54⟩) := by
  refine ⟨by decide +kernel, ?_⟩
  have log : frames 0 [firstRecord, secondRecord, thirdRecord] =
      frames 0 [firstRecord] ++ frame 1 secondRecord.encode ++ frame 2 thirdRecord.encode := by
    decide +kernel
  have frontLength : (frames 0 [firstRecord]).length = 26 := by decide +kernel
  have recordLength : (frame 1 secondRecord.encode).length = 28 := by decide +kernel
  have restLength : (frame 2 thirdRecord.encode).length = 26 := by decide +kernel
  have valid : readRecord? 1 (frame 1 secondRecord.encode) =
      some (secondRecord, (frame 1 secondRecord.encode).length - headerLength) := by
    decide +kernel
  have stops := @replay_of_changed _ _ (frame 2 thirdRecord.encode) [firstRecord] secondRecord 27 9
    (readRecords_frames_self (by decide +kernel)) valid (by decide) (by rw [recordLength]; decide)
    (by decide +kernel)
  rw [frontLength, recordLength, restLength] at stops
  rw [log]
  exact stops

end GraphStore.Log
