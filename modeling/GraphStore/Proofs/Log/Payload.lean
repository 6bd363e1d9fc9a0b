import GraphStore.Log.Record
import GraphStore.Proofs.Encoding.Delimiting

/-!
Contract: payloads of row changes, written and read back.

Owns that every part of a payload marks its own end (`delimits_readSized`, `delimits_readMany`), so
that a reader encloses the payload of a row change, whatever store, key, columns and values it has,
provided that its length fits a word (`encloses_read`): it is decoded to that change
(`decode_encode`), and neither a shorter front of it nor anything longer is decoded at all.
-/

namespace GraphStore.RowChange

open Encoding

variable {α : Type}

/-! ### Parts of a payload -/

/-- A content behind its length delimits itself. -/
theorem delimits_readSized {content : Bytes} (fits : content.length < Word.count 64) :
    readSized.Delimits (sized content) content := by
  have counted : (UInt64.ofNat content.length).toNat = content.length :=
    UInt64.toNat_ofNat_of_lt' fits
  have body : (Read.take (UInt64.ofNat content.length).toNat).Delimits content content := by
    rw [counted]
    exact delimits_take content
  exact (delimits_varint fits).bind body

theorem delimits_readEntry {entry : Entry} (columnFits : entry.column.length < Word.count 64)
    (valueFits : entry.value.length < Word.count 64) :
    readEntry.Delimits (encodeEntry entry) entry :=
  (delimits_readSized columnFits).bind ((delimits_readSized valueFits).answering rfl)

theorem delimits_readStore {store : String}
    (fits : (Bytes.ofString store).length < Word.count 64) :
    readStore.Delimits (sized (Bytes.ofString store)) store := by
  refine (delimits_readSized fits).answering ?_
  rw [Bytes.toString?_ofString]

/-- A reader that finds the end of each item finds the ends of the items one after the other. -/
theorem delimits_readMany {item : Read α} {write : α → Bytes} {values : List α}
    (delimitsItem : ∀ value ∈ values, item.Delimits (write value) value) :
    (readMany item values.length).Delimits (values.flatMap write) values := by
  induction values with
  | nil => exact Read.Delimits.pure []
  | cons value values inductionHypothesis =>
      have first := delimitsItem value List.mem_cons_self
      have others := inductionHypothesis fun other member =>
        delimitsItem other (List.mem_cons_of_mem _ member)
      rw [List.flatMap_cons]
      exact first.bind (others.answering rfl)

/-! ### Lengths of parts -/

theorem length_lt_sized (content : Bytes) : content.length < (sized content).length := by
  have counted := List.length_pos_iff.2 (varint_ne_nil content.length)
  rw [sized, List.length_append]
  omega

theorem length_le_flatMap_of_mem (write : α → Bytes) {values : List α} {value : α}
    (member : value ∈ values) : (write value).length ≤ (values.flatMap write).length := by
  obtain ⟨front, back, rfl⟩ := List.append_of_mem member
  rw [List.flatMap_append, List.flatMap_cons, List.length_append, List.length_append]
  omega

/-- Items that take at least a byte each are no more than the bytes. -/
theorem length_le_length_flatMap {write : α → Bytes} (nonempty : ∀ value, write value ≠ [])
    (values : List α) : values.length ≤ (values.flatMap write).length := by
  induction values with
  | nil => exact Nat.zero_le _
  | cons value values inductionHypothesis =>
      have first := List.length_pos_iff.2 (nonempty value)
      rw [List.flatMap_cons, List.length_append, List.length_cons]
      omega

theorem sized_ne_nil (content : Bytes) : sized content ≠ [] :=
  List.append_ne_nil_of_left_ne_nil (varint_ne_nil _) _

theorem encodeEntry_ne_nil (entry : Entry) : encodeEntry entry ≠ [] :=
  List.append_ne_nil_of_left_ne_nil (sized_ne_nil _) _

/-! ### Whole payloads -/

theorem length_encode (change : RowChange) :
    change.encode.length = (sized (Bytes.ofString change.store)).length
      + (sized change.key).length + (varint change.deletions.length).length
      + (change.deletions.flatMap sized).length + (varint change.additions.length).length
      + (change.additions.flatMap encodeEntry).length := by
  simp only [encode, List.length_append]

theorem encode_eq (change : RowChange) :
    change.encode = sized (Bytes.ofString change.store) ++ (sized change.key
      ++ (varint change.deletions.length ++ (change.deletions.flatMap sized
        ++ (varint change.additions.length ++ (change.additions.flatMap encodeEntry ++ []))))) := by
  simp only [encode, List.append_assoc, List.append_nil]

/-- The payload of a row change is read back from the whole of its bytes alone. -/
theorem encloses_read {change : RowChange} (fits : change.encode.length < Word.count 64) :
    read.Encloses .trailingRecord change.encode change := by
  rw [length_encode] at fits
  have store := length_lt_sized (Bytes.ofString change.store)
  have key := length_lt_sized change.key
  have deletionCount := length_le_length_flatMap sized_ne_nil change.deletions
  have additionCount := length_le_length_flatMap encodeEntry_ne_nil change.additions
  have delimitsDeletions : (readMany readSized change.deletions.length).Delimits
      (change.deletions.flatMap sized) change.deletions := by
    refine delimits_readMany fun column member => delimits_readSized ?_
    have whole := length_le_flatMap_of_mem sized member
    have proper := length_lt_sized column
    omega
  have delimitsAdditions : (readMany readEntry change.additions.length).Delimits
      (change.additions.flatMap encodeEntry) change.additions := by
    refine delimits_readMany fun entry member => ?_
    have whole := length_le_flatMap_of_mem encodeEntry member
    rw [encodeEntry, List.length_append] at whole
    have column := length_lt_sized entry.column
    have value := length_lt_sized entry.value
    exact delimits_readEntry (by omega) (by omega)
  have counted {count : Nat} (small : count < Word.count 64) :
      (UInt64.ofNat count).toNat = count := UInt64.toNat_ofNat_of_lt' small
  rw [← counted (show change.deletions.length < Word.count 64 by omega)] at delimitsDeletions
  rw [← counted (show change.additions.length < Word.count 64 by omega)] at delimitsAdditions
  rw [encode_eq]
  refine (delimits_readStore (by omega)).bindEncloses
    ((delimits_readSized (by omega)).bindEncloses ?_)
  refine (delimits_varint (by omega)).bindEncloses (delimitsDeletions.bindEncloses ?_)
  exact (delimits_varint (by omega)).bindEncloses
    (delimitsAdditions.bindEncloses (encloses_finish .trailingRecord change))

/-- The payload of a row change is decoded to that change. -/
theorem decode_encode {change : RowChange} (fits : change.encode.length < Word.count 64) :
    decode change.encode = .ok change := by
  have taken := (encloses_read fits).whole 0 (by rw [Nat.zero_add]; exact fits)
  exact congrArg Prod.fst taken

/-- A front of the payload of a row change that lacks some of it is damaged. -/
theorem decode_take {change : RowChange} (fits : change.encode.length < Word.count 64) {cut : Nat}
    (inside : cut < change.encode.length) :
    ∃ damage, decode (change.encode.take cut) = .error (.corruption damage) := by
  obtain ⟨damage, after, failed⟩ :=
    (encloses_read fits).torn 0 cut (by rw [Nat.zero_add]; exact fits) inside
  exact ⟨damage, congrArg Prod.fst failed⟩

/-- The payload of a row change with bytes behind it is damaged. -/
theorem decode_append {change : RowChange} (fits : change.encode.length < Word.count 64)
    {behind : Bytes} (filled : behind ≠ []) :
    decode (change.encode ++ behind) = .error (.corruption (.trailingRecord behind.length)) := by
  obtain ⟨after, failed⟩ :=
    (encloses_read fits).longer 0 behind (by rw [Nat.zero_add]; exact fits) filled
  exact congrArg Prod.fst failed

end GraphStore.RowChange
