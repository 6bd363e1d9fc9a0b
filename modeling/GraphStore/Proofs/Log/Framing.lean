import GraphStore.Proofs.Log.Payload

/-!
Contract: frames of records, written and read back.

Owns the content of a log that holds a list of row changes (`frames`), and what replay makes
of it: every record whose payload is below the limit is read back (`readRecords_frames`), and
a frame that is cut short, that has another number or that never was one ends the reading.
-/

namespace GraphStore

/-- Whether the payload of a row change is short enough for a record. -/
def RowChange.Loggable (change : RowChange) : Prop := change.encode.length < Log.payloadLimit

instance (change : RowChange) : Decidable change.Loggable := by
  unfold RowChange.Loggable
  infer_instance

namespace Log

/-- The records of row changes, numbered from `sequence` on. -/
def frames (sequence : UInt64) : List RowChange → Bytes
  | [] => []
  | change :: changes => frame sequence change.encode ++ frames (sequence + 1) changes

/-! ### Sequence numbers -/

/-- The number behind `count` records and one more. -/
theorem sequence_succ (sequence : UInt64) (count : Nat) :
    sequence + UInt64.ofNat (count + 1) = sequence + 1 + UInt64.ofNat count := by
  rw [UInt64.ofNat_add, UInt64.add_assoc, UInt64.add_comm 1]
  rfl

theorem ofNat_succ (count : Nat) : UInt64.ofNat (count + 1) = UInt64.ofNat count + 1 := by
  rw [UInt64.ofNat_add]
  rfl

/-- Records of two lists stand one behind the other, numbered through. -/
theorem frames_append (sequence : UInt64) (front back : List RowChange) :
    frames sequence (front ++ back) =
      frames sequence front ++ frames (sequence + UInt64.ofNat front.length) back := by
  induction front generalizing sequence with
  | nil => simp [frames]
  | cons change changes inductionHypothesis =>
      rw [List.cons_append, frames, inductionHypothesis, frames, List.append_assoc,
        List.length_cons, sequence_succ]

/-! ### Parts of a frame -/

@[simp] theorem length_frame (sequence : UInt64) (payload : Bytes) :
    (frame sequence payload).length = headerLength + payload.length := by
  simp [frame, headerLength]
  omega

theorem headerLength_le_length_frames {changes : List RowChange} (filled : changes ≠ [])
    (sequence : UInt64) : headerLength ≤ (frames sequence changes).length := by
  cases changes with
  | nil => exact absurd rfl filled
  | cons change changes =>
      rw [frames, List.length_append, length_frame]
      omega

/-- Every record takes up at least a byte. -/
theorem length_le_length_frames (changes : List RowChange) (sequence : UInt64) :
    changes.length ≤ (frames sequence changes).length := by
  induction changes generalizing sequence with
  | nil => exact Nat.zero_le _
  | cons change changes inductionHypothesis =>
      have others := inductionHypothesis (sequence + 1)
      rw [frames, List.length_append, length_frame, headerLength, List.length_cons]
      omega

theorem frame_ne_nil (sequence : UInt64) (payload : Bytes) : frame sequence payload ≠ [] := by
  intro empty
  have length := length_frame sequence payload
  rw [empty, headerLength, List.length_nil] at length
  omega

/-- The part behind the first bytes of a string that starts with them. -/
theorem part_append {front middle back : Bytes} {skipped count : Nat}
    (behind : front.length = skipped) (whole : middle.length = count) :
    part (front ++ (middle ++ back)) skipped count = middle := by
  rw [part, ← behind, ← whole, List.drop_left, List.take_left]

section Parts

variable (sequence : UInt64) (payload rest : Bytes)

theorem part_frame_length :
    part (frame sequence payload ++ rest) 0 4 = Bytes.bigEndian 4 payload.length := by
  simp only [frame, List.append_assoc]
  exact part_append List.length_nil (Bytes.length_bigEndian 4 _)

theorem part_frame_sequence :
    part (frame sequence payload ++ rest) 4 8 = Bytes.ofUInt64 sequence := by
  simp only [frame, List.append_assoc]
  exact part_append (Bytes.length_bigEndian 4 _) (Bytes.length_ofUInt64 _)

theorem part_frame_checksum :
    part (frame sequence payload ++ rest) 12 4 =
      Bytes.ofUInt32 (Checksum.ofRecord sequence payload) := by
  rw [frame, List.append_assoc, List.append_assoc]
  exact part_append (by simp) (Bytes.length_ofUInt32 _)

theorem part_frame_payload :
    part (frame sequence payload ++ rest) headerLength payload.length = payload := by
  rw [frame, List.append_assoc]
  exact part_append (by simp [headerLength]) rfl

/-- The length field says how long the payload is. -/
theorem toNat_part_length (fits : payload.length < payloadLimit) :
    (part (frame sequence payload ++ rest) 0 4).toNat = payload.length := by
  rw [part_frame_length]
  exact Bytes.toNat_bigEndian_of_lt fits

end Parts

/-! ### Single records -/

theorem encodeFrame_of_loggable (sequence : UInt64) {change : RowChange}
    (loggable : change.Loggable) :
    encodeFrame sequence change = .ok (frame sequence change.encode) := by
  rw [encodeFrame]
  exact if_pos loggable

/-- Only a change that fits a record has a frame. -/
theorem loggable_of_encodeFrame {sequence : UInt64} {change : RowChange} {bytes : Bytes}
    (encoded : encodeFrame sequence change = .ok bytes) :
    change.Loggable ∧ bytes = frame sequence change.encode := by
  by_cases loggable : change.Loggable
  · rw [encodeFrame_of_loggable sequence loggable] at encoded
    exact ⟨loggable, (Except.ok.inj encoded).symm⟩
  · rw [encodeFrame] at encoded
    exact absurd (encoded.symm.trans (if_neg loggable)) nofun

theorem fits_of_loggable {change : RowChange} (loggable : change.Loggable) :
    change.encode.length < Word.count 64 :=
  Nat.lt_trans loggable (by decide)

/-- A record at the front of a log is read back. -/
theorem readRecord?_frame (sequence : UInt64) {change : RowChange} (rest : Bytes)
    (loggable : change.Loggable) :
    readRecord? sequence (frame sequence change.encode ++ rest) =
      some (change, change.encode.length) := by
  have long : headerLength + change.encode.length ≤
      (frame sequence change.encode ++ rest).length := by
    rw [List.length_append, length_frame]
    omega
  rw [readRecord?, if_neg (by omega)]
  simp only [toNat_part_length sequence change.encode rest loggable]
  rw [if_neg (by omega), part_frame_sequence, part_frame_payload, part_frame_checksum,
    Bytes.toNat_ofUInt64, Bytes.toNat_ofUInt32, if_neg (not_not_intro rfl),
    if_neg (not_not_intro rfl), RowChange.decode_encode (fits_of_loggable loggable)]

/-- A record with another number is not read. -/
theorem readRecord?_of_sequence_ne {expected : UInt64} {log : Bytes}
    (different : (part log 4 8).toNat ≠ expected.toNat) : readRecord? expected log = none := by
  rw [readRecord?]
  by_cases short : log.length < headerLength
  · rw [if_pos short]
  · rw [if_neg short]
    by_cases cut : log.length < headerLength + (part log 0 4).toNat
    · exact if_pos cut
    · simp only [if_neg cut, if_pos different]

/-- A record with another number at the front of a log is not read. -/
theorem readRecord?_frame_of_ne {expected sequence : UInt64} (different : sequence ≠ expected)
    (payload rest : Bytes) :
    readRecord? expected (frame sequence payload ++ rest) = none := by
  apply readRecord?_of_sequence_ne
  rw [part_frame_sequence, Bytes.toNat_ofUInt64]
  exact fun same => different (UInt64.toNat_inj.1 same)

/-- A part that ends within the first of two strings. -/
theorem part_append_left {front back : Bytes} {skipped count : Nat}
    (within : skipped + count ≤ front.length) :
    part (front ++ back) skipped count = part front skipped count := by
  rw [part, part, List.drop_append_of_le_length (by omega),
    List.take_append_of_le_length (by rw [List.length_drop]; omega)]

/-- A header of zeros, such as a gap in front of a record leaves, is none. -/
theorem readRecord?_zeros {count : Nat} (header : headerLength ≤ count) (rest : Bytes) :
    readRecord? 0 (Bytes.zeros count ++ rest) = none := by
  have split : Bytes.zeros count ++ rest =
      Bytes.zeros headerLength ++ (Bytes.zeros (count - headerLength) ++ rest) := by
    rw [← List.append_assoc, Bytes.zeros, Bytes.zeros, Bytes.zeros, List.replicate_append_replicate,
      Nat.add_sub_of_le header]
  rw [split, readRecord?]
  generalize Bytes.zeros (count - headerLength) ++ rest = behind
  have length : (part (Bytes.zeros headerLength ++ behind) 0 4).toNat = 0 := by
    rw [part_append_left (by decide)]
    decide
  have sequence : (part (Bytes.zeros headerLength ++ behind) 4 8).toNat = 0 := by
    rw [part_append_left (by decide)]
    decide
  have checksum : (part (Bytes.zeros headerLength ++ behind) 12 4).toNat = 0 := by
    rw [part_append_left (by decide)]
    decide
  have payload : part (Bytes.zeros headerLength ++ behind) headerLength 0 = [] := List.take_zero
  have long : headerLength ≤ (Bytes.zeros headerLength ++ behind).length := by
    rw [List.length_append, Bytes.zeros, List.length_replicate]
    omega
  have differs : (0 : Nat) ≠ (Checksum.ofRecord 0 []).toNat := by decide +kernel
  rw [if_neg (by omega)]
  simp only [length]
  rw [if_neg (by omega), sequence, checksum, payload,
    if_neg (show ¬ (0 : Nat) ≠ (0 : UInt64).toNat by decide), if_pos differs]

/-- A frame that is cut short is not read, whatever number is expected. -/
theorem readRecord?_torn (expected sequence : UInt64) {payload : Bytes} {kept : Nat}
    (fits : payload.length < payloadLimit) (torn : kept < (frame sequence payload).length) :
    readRecord? expected ((frame sequence payload).take kept) = none := by
  rw [length_frame] at torn
  have length : ((frame sequence payload).take kept).length = kept := by
    rw [List.length_take, length_frame]
    omega
  rw [readRecord?, length]
  by_cases short : kept < headerLength
  · exact if_pos short
  · -- the length field is complete, so it asks for more bytes than there are
    have field : part ((frame sequence payload).take kept) 0 4 =
        part (frame sequence payload ++ []) 0 4 := by
      rw [headerLength] at short
      rw [part, part, List.drop_zero, List.drop_zero, List.take_take, List.append_nil,
        Nat.min_eq_left (by omega)]
    rw [if_neg short, field, toNat_part_length sequence payload [] fits]
    exact if_pos torn

theorem readRecord?_nil (expected : UInt64) : readRecord? expected [] = none := rfl

/-! ### Whole logs -/

/-- Where no record can be read, reading stops. -/
theorem readRecords_of_none {sequence : UInt64} {log : Bytes}
    (unread : readRecord? sequence log = none) : readRecords sequence log = ([], log) := by
  rw [readRecords]
  split
  · rename_i found
    exact absurd (found.symm.trans unread) (Option.some_ne_none _)
  · rfl

/-- A record that can be read is followed by those behind it. -/
theorem readRecords_of_some {sequence : UInt64} {log : Bytes} {change : RowChange}
    {length : Nat} (read : readRecord? sequence log = some (change, length)) :
    readRecords sequence log =
      (change :: (readRecords (sequence + 1) (log.drop (headerLength + length))).1,
        (readRecords (sequence + 1) (log.drop (headerLength + length))).2) := by
  rw [readRecords]
  split
  · rename_i found
    obtain ⟨rfl, rfl⟩ := Prod.mk.inj (Option.some.inj (found.symm.trans read))
    rfl
  · rename_i unread
    exact absurd (read.symm.trans unread) (Option.some_ne_none _)

/-- The records at the front of a log are read back, and reading goes on behind them. -/
theorem readRecords_frames (sequence : UInt64) {changes : List RowChange} (rest : Bytes)
    (loggable : ∀ change ∈ changes, change.Loggable) :
    readRecords sequence (frames sequence changes ++ rest) =
      (changes ++ (readRecords (sequence + UInt64.ofNat changes.length) rest).1,
        (readRecords (sequence + UInt64.ofNat changes.length) rest).2) := by
  induction changes generalizing sequence with
  | nil => simp [frames]
  | cons change changes inductionHypothesis =>
      have first := readRecord?_frame sequence (frames (sequence + 1) changes ++ rest)
        (loggable change List.mem_cons_self)
      have behind : (frame sequence change.encode ++ (frames (sequence + 1) changes ++ rest)).drop
          (headerLength + change.encode.length) = frames (sequence + 1) changes ++ rest := by
        rw [← length_frame sequence change.encode, List.drop_left]
      have others := inductionHypothesis (sequence + 1) fun other member =>
        loggable other (List.mem_cons_of_mem _ member)
      rw [frames, List.append_assoc, readRecords_of_some first, behind, others,
        List.length_cons, sequence_succ]
      rfl

/-- A log of records holds just their row changes. -/
theorem readRecords_frames_self {changes : List RowChange}
    (loggable : ∀ change ∈ changes, change.Loggable) :
    readRecords 0 (frames 0 changes) = (changes, []) := by
  have read := readRecords_frames 0 [] loggable
  rw [readRecords_of_none (readRecord?_nil _), List.append_nil, List.append_nil] at read
  exact read

/-- Behind the records of a log, the front of one more frame is a further record if it is
the whole frame, and otherwise nothing. -/
theorem readRecords_frames_torn {changes : List RowChange} {change : RowChange}
    (loggable : ∀ change ∈ changes, change.Loggable) (last : change.Loggable) (kept : Nat) :
    ∃ rest, readRecords 0 (frames 0 changes ++
        (frame (UInt64.ofNat changes.length) change.encode).take kept) =
      (changes ++
        if (frame (UInt64.ofNat changes.length) change.encode).length ≤ kept then [change] else [],
        rest) := by
  rw [readRecords_frames 0 _ loggable, UInt64.zero_add]
  by_cases whole : (frame (UInt64.ofNat changes.length) change.encode).length ≤ kept
  · have read := readRecord?_frame (UInt64.ofNat changes.length) [] last
    have behind : (frame (UInt64.ofNat changes.length) change.encode ++ []).drop
        (headerLength + change.encode.length) = [] := by
      rw [← length_frame (UInt64.ofNat changes.length) change.encode, List.drop_left]
    rw [List.take_of_length_le whole, if_pos whole, ← List.append_nil (frame _ _),
      readRecords_of_some read, behind, readRecords_of_none (readRecord?_nil _)]
    exact ⟨[], rfl⟩
  · rw [if_neg whole,
      readRecords_of_none (readRecord?_torn _ _ last (Nat.lt_of_not_le whole))]
    exact ⟨_, rfl⟩

/-! ### Replay -/

theorem applyAll_append (front back : List RowChange) (tables : Tables) :
    applyAll (front ++ back) tables = applyAll back (applyAll front tables) :=
  List.foldl_append

/-- Bytes behind the records of a log that are no record are discarded by replay. -/
theorem replay_frames_append {changes : List RowChange}
    (loggable : ∀ change ∈ changes, change.Loggable) {torn : Bytes}
    (unread : ∀ expected, readRecord? expected torn = none) :
    replay (frames 0 changes ++ torn) =
      (applyAll changes .empty, ⟨changes.length, (frames 0 changes).length, torn.length⟩) := by
  rw [replay, readRecords_frames 0 torn loggable, readRecords_of_none (unread _), List.append_nil]
  dsimp only
  rw [List.length_append, Nat.add_sub_cancel]

/-- A log of whole records is replayed whole. -/
theorem replay_frames {changes : List RowChange}
    (loggable : ∀ change ∈ changes, change.Loggable) :
    replay (frames 0 changes) =
      (applyAll changes .empty, ⟨changes.length, (frames 0 changes).length, 0⟩) := by
  have whole := replay_frames_append loggable readRecord?_nil
  rw [List.append_nil] at whole
  exact whole

end Log

end GraphStore
