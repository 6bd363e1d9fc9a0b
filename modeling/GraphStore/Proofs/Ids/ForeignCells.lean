import GraphStore.Proofs.Encoding.Numbers
import GraphStore.Proofs.Ids.Store
import GraphStore.Proofs.Ids.Granting

/-!
Contract: requests for blocks at a watermark cell with any bytes in it.

Owns what such a request comes to (`IdAuthority.MeetsCell`): bytes that are too short for a number
are reported as corruption, and of all others the first eight count, behind which the block starts.
Every guarded manager whose writes fail for good answers so (`GuardedManager.meetsCell`), and both
backends are such. A request never waits here: its cell is as it has been read, so that the
conditional write happens or fails for good (`SureWrite`).
-/

namespace GraphStore

/-- How a conditional write ends at a cell that is as it was read. -/
inductive SureWrite : Result Bool → Prop where
  | written : SureWrite (.ok true)
  | failed {failure : StoreError} (lasting : failure.isRetryable = false)
      (undamaged : ∀ damage, failure ≠ .corruption damage) : SureWrite (.error failure)

namespace IdAuthority

variable {σ : Type}

/-- What a request comes to that meets the given bytes in the cell of its watermark. -/
structure MeetsCell (authority : IdAuthority) (manager : Manager σ)
    (partitionId namespaceId : UInt32) (timeout : Nat) (state : σ) (cell : Bytes) : Prop where
  short : cell.length < 8 →
    authority.getIdBlock manager partitionId namespaceId timeout state =
      (.error (.corruption (.badWatermark (watermarkKey partitionId namespaceId) cell)), state)
  exhausted : ∀ start, Bytes.ofUInt64 start <+: cell →
    blockEnd? start (authority.sizer.shape namespaceId) = none →
    authority.getIdBlock manager partitionId namespaceId timeout state =
      (.error (.idsExhausted partitionId namespaceId
        (authority.sizer.shape namespaceId).upperBound), state)
  granted : ∀ start stop, Bytes.ofUInt64 start <+: cell →
    blockEnd? start (authority.sizer.shape namespaceId) = some stop →
    ∀ outcome after, authority.advance manager (watermarkKey partitionId namespaceId) (some cell)
        stop state = (outcome, after) →
      authority.getIdBlock manager partitionId namespaceId timeout state =
        (outcome.map fun _ => ⟨partitionId, namespaceId, start, stop⟩, after)
  corrupted : (∃ damage, (authority.getIdBlock manager partitionId namespaceId timeout state).1 =
    .error (.corruption damage)) ↔ cell.length < 8

section Requests

variable {authority : IdAuthority} {manager : Manager σ} {partitionId namespaceId : UInt32}
  {state after : σ} {table : Table} {cell : Bytes} {start stop : UInt64} {outcome : Result Bool}
  (admitted : authority.admits namespaceId = true)
  (shown : manager.getSlice authority.store (watermarkKey partitionId namespaceId)
      (Slice.ofPrefix watermarkColumn) state =
    (.ok (Table.slice table (watermarkKey partitionId namespaceId)
      (Slice.ofPrefix watermarkColumn)), state))
  (held : table.watermarkCell partitionId namespaceId = some cell)

include shown held in
theorem readWatermark_of_leading (front : Bytes.ofUInt64 start <+: cell) :
    authority.readWatermark manager (watermarkKey partitionId namespaceId) state =
      (.ok (some cell, start), state) := by
  rw [← held]
  apply readWatermark_of_slice shown
  rw [held]
  exact Encoding.leadingUInt64_eq_ok.2 front

include admitted shown held

theorem getIdBlock_of_short (short : cell.length < 8) (timeout : Nat) :
    authority.getIdBlock manager partitionId namespaceId timeout state =
      (.error (.corruption (.badWatermark (watermarkKey partitionId namespaceId) cell)),
        state) := by
  have read := readWatermark_of_damaged shown held (Encoding.leadingUInt64_of_short short)
  exact getIdBlock_of_settled admitted (Action.bind_of_error read) rfl timeout

theorem getIdBlock_of_exhausted (front : Bytes.ofUInt64 start <+: cell)
    (none : blockEnd? start (authority.sizer.shape namespaceId) = none) (timeout : Nat) :
    authority.getIdBlock manager partitionId namespaceId timeout state =
      (.error (.idsExhausted partitionId namespaceId
        (authority.sizer.shape namespaceId).upperBound), state) := by
  have read := readWatermark_of_leading shown held front
  have claims : authority.tryClaim manager partitionId namespaceId state =
      (.error (.idsExhausted partitionId namespaceId
        (authority.sizer.shape namespaceId).upperBound), state) := by
    rw [tryClaim, Action.bind_of_ok read]
    simp only [none]
    rfl
  exact getIdBlock_of_settled admitted claims rfl timeout

theorem getIdBlock_of_advance (front : Bytes.ofUInt64 start <+: cell)
    (fits : blockEnd? start (authority.sizer.shape namespaceId) = some stop)
    (ran : authority.advance manager (watermarkKey partitionId namespaceId) (some cell) stop state =
      (outcome, after))
    (sure : SureWrite outcome) (timeout : Nat) :
    authority.getIdBlock manager partitionId namespaceId timeout state =
      (outcome.map fun _ => ⟨partitionId, namespaceId, start, stop⟩, after) := by
  have read := readWatermark_of_leading shown held front
  have claims : authority.tryClaim manager partitionId namespaceId state =
      authority.redeem manager partitionId namespaceId ⟨some cell, start, stop⟩ state := by
    rw [tryClaim, Action.bind_of_ok read]
    simp only [fits]
    rfl
  cases sure with
  | written =>
      rw [redeem, Action.bind_of_ok ran] at claims
      exact getIdBlock_of_settled admitted claims rfl timeout
  | failed lasting undamaged =>
      rw [redeem, Action.bind_of_error ran] at claims
      rw [getIdBlock_of_settled admitted claims lasting timeout, settle, lasting]
      rfl

/-- A request whose conditional write is sure answers to the bytes in its cell alone. -/
theorem meetsCell (writes : ∀ stop, SureWrite (authority.advance manager
      (watermarkKey partitionId namespaceId) (some cell) stop state).1) (timeout : Nat) :
    authority.MeetsCell manager partitionId namespaceId timeout state cell where
  short short := getIdBlock_of_short admitted shown held short timeout
  exhausted start front none := getIdBlock_of_exhausted admitted shown held front none timeout
  granted start stop front fits outcome after ran := by
    have sure := writes stop
    rw [ran] at sure
    exact getIdBlock_of_advance admitted shown held front fits ran sure timeout
  corrupted := by
    constructor
    · rintro ⟨damage, reported⟩
      apply Nat.lt_of_not_le
      intro long
      obtain ⟨start, front⟩ := Encoding.exists_leading long
      cases fits : blockEnd? start (authority.sizer.shape namespaceId) with
      | none =>
          rw [getIdBlock_of_exhausted admitted shown held front fits timeout] at reported
          exact nomatch reported
      | some stop =>
          have sure := writes stop
          rcases ran : authority.advance manager (watermarkKey partitionId namespaceId) (some cell)
            stop state with ⟨outcome, after⟩
          rw [ran] at sure
          rw [getIdBlock_of_advance admitted shown held front fits ran sure timeout] at reported
          cases sure with
          | written => exact nomatch reported
          | failed lasting undamaged => exact undamaged damage (Except.error.inj reported)
    · intro short
      exact ⟨_, congrArg Prod.fst (getIdBlock_of_short admitted shown held short timeout)⟩

end Requests

end IdAuthority

/-! ### Guarded managers -/

namespace GuardedManager

variable {σ : Type} {manager : Manager σ} (guarded : GuardedManager manager)
  {authority : IdAuthority} {partitionId namespaceId : UInt32} {cell : Bytes} {state : σ}
  (isOpen : guarded.closed state = false)
  (held : ((guarded.stores state).table authority.store).watermarkCell partitionId namespaceId =
    some cell)
include isOpen held

/-- A block is taken at the cell by the write of one row. -/
theorem advance_of_held (stop : UInt64) {outcome : Result Unit} {after : σ}
    (written : guarded.write authority.store (IdAuthority.watermarkKey partitionId namespaceId)
      [⟨IdAuthority.watermarkColumn, Bytes.ofUInt64 stop⟩] [] state = (outcome, after)) :
    authority.advance manager (IdAuthority.watermarkKey partitionId namespaceId) (some cell) stop
      state = (outcome.map fun _ => true, after) :=
  (guarded.compareAndSwap_of_written isOpen authority.store _ _ _ _ written).trans (if_pos held)

/-- Requests to an open manager meet the cell that its table holds. -/
theorem meetsCell (admitted : authority.admits namespaceId = true)
    (sure : ∀ {store key additions deletions outcome after},
      guarded.write store key additions deletions state = (outcome, after) →
        SureWrite (outcome.map fun _ => true)) (timeout : Nat) :
    authority.MeetsCell manager partitionId namespaceId timeout state cell := by
  apply IdAuthority.meetsCell admitted (guarded.getSlice_of_handle isOpen _ _ _) held
  intro stop
  rcases written : guarded.write authority.store
      (IdAuthority.watermarkKey partitionId namespaceId)
      [⟨IdAuthority.watermarkColumn, Bytes.ofUInt64 stop⟩] [] state with ⟨outcome, after⟩
  rw [guarded.advance_of_held isOpen held stop written]
  exact sure written

end GuardedManager

/-! ### Both backends -/

section Backends

variable {authority : IdAuthority} {partitionId namespaceId : UInt32} {cell : Bytes}
  (admitted : authority.admits namespaceId = true)
include admitted

namespace Memory

variable {memory : Memory} (isOpen : memory.closed = false)
  (held : (memory.stores.table authority.store).watermarkCell partitionId namespaceId = some cell)
include isOpen held

theorem meetsCell (timeout : Nat) :
    authority.MeetsCell Memory.manager partitionId namespaceId timeout memory cell := by
  apply guarded.meetsCell isOpen held admitted
  intro store key additions deletions outcome after written
  obtain rfl : .ok () = outcome := congrArg Prod.fst written
  exact .written

/-- Writes in memory do not fail, so that a block within the bound is granted. -/
theorem getIdBlock_of_held {start stop : UInt64} (front : Bytes.ofUInt64 start <+: cell)
    (fits : IdAuthority.blockEnd? start (authority.sizer.shape namespaceId) = some stop)
    (timeout : Nat) :
    (authority.getIdBlock Memory.manager partitionId namespaceId timeout memory).1 =
      .ok ⟨partitionId, namespaceId, start, stop⟩ :=
  congrArg Prod.fst ((meetsCell admitted isOpen held timeout).granted start stop front fits _ _
    (guarded.advance_of_held isOpen held stop rfl))

end Memory

namespace Embedded

omit admitted in
/-- Whatever the file does, the failures of the log are final, and none of them is damage. -/
theorem sureWrite_of_written {embedded after : Embedded} {store : StoreRef} {key : Bytes}
    {additions : List Entry} {deletions : List Bytes} {outcome : Result Unit}
    (written : writeRow store key additions deletions embedded = (outcome, after)) :
    SureWrite (outcome.map fun _ => true) := by
  cases outcome with
  | ok done => exact .written
  | error failure =>
      obtain ⟨writer, refused⟩ := append_of_writeRow_error written
      rcases LogWriter.append_error refused with rfl | ⟨cause, rfl⟩ | rfl <;>
        exact .failed rfl nofun

theorem meetsCell {embedded : Embedded} (isOpen : embedded.closed = false)
    (held : (embedded.stores.table authority.store).watermarkCell partitionId namespaceId =
      some cell) (timeout : Nat) :
    authority.MeetsCell Embedded.manager partitionId namespaceId timeout embedded cell :=
  guarded.meetsCell isOpen held admitted sureWrite_of_written timeout

end Embedded

end Backends

end GraphStore
