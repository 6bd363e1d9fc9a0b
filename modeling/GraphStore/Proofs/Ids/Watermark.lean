import GraphStore.Ids.Authority
import GraphStore.Proofs.Action
import GraphStore.Proofs.Bytes
import GraphStore.Proofs.Encoding.Numbers
import GraphStore.Proofs.Tables

/-!
Contract: watermarks as cells of a table, and blocks as ranges above them.

Owns the cell of a watermark (`Table.watermarkCell`), the effect of writing one
(`Table.putWatermark`), the arithmetic of the block that starts at one, and blocks without gaps
between them (`Tiles`). Different partitions or namespaces have different cells.
-/

namespace GraphStore

/-! ### Cells -/

namespace IdAuthority

theorem watermarkKey_injective {partitionId namespaceId otherPartition otherNamespace : UInt32}
    (same : watermarkKey partitionId namespaceId = watermarkKey otherPartition otherNamespace) :
    partitionId = otherPartition ∧ namespaceId = otherNamespace := by
  rw [watermarkKey, watermarkKey] at same
  have lengths : (Bytes.ofUInt32 partitionId).length = (Bytes.ofUInt32 otherPartition).length := by
    rw [Bytes.length_ofUInt32, Bytes.length_ofUInt32]
  obtain ⟨partitions, namespaces⟩ := List.append_inj same lengths
  exact ⟨Bytes.ofUInt32_injective partitions, Bytes.ofUInt32_injective namespaces⟩

/-- The number that a watermark cell stands for; no cell stands for zero. -/
def watermarkOf : Option Bytes → Result UInt64
  | none => .ok 0
  | some value => Encoding.leadingUInt64 value

theorem watermarkOf_ofUInt64 (value : UInt64) :
    watermarkOf (some (Bytes.ofUInt64 value)) = .ok value :=
  Encoding.leadingUInt64_ofUInt64 value

end IdAuthority

namespace Table

open IdAuthority

def watermarkCell (table : Table) (partitionId namespaceId : UInt32) : Option Bytes :=
  Table.cell? table (watermarkKey partitionId namespaceId) watermarkColumn

/-- The table with a watermark in place of an earlier one. -/
def putWatermark (table : Table) (partitionId namespaceId : UInt32) (stop : UInt64) : Table :=
  Table.change table (watermarkKey partitionId namespaceId)
    [⟨watermarkColumn, Bytes.ofUInt64 stop⟩] []

/-- A watermark that was put is found in its cell. -/
theorem watermarkCell_putWatermark (table : Table) (partitionId namespaceId : UInt32)
    (stop : UInt64) :
    (table.putWatermark partitionId namespaceId stop).watermarkCell partitionId namespaceId =
      some (Bytes.ofUInt64 stop) := by
  rw [watermarkCell, putWatermark, cell?_change, if_pos ⟨rfl, rfl⟩]

/-- Writing one watermark leaves all others as they are. -/
theorem watermarkCell_putWatermark_of_ne (table : Table)
    {partitionId namespaceId otherPartition otherNamespace : UInt32}
    (different : (otherPartition, otherNamespace) ≠ (partitionId, namespaceId))
    (stop : UInt64) :
    (table.putWatermark partitionId namespaceId stop).watermarkCell otherPartition
        otherNamespace =
      table.watermarkCell otherPartition otherNamespace := by
  rw [watermarkCell, putWatermark, cell?_change, if_neg]
  · rfl
  · rintro ⟨sameKey, _⟩
    obtain ⟨samePartition, sameNamespace⟩ := watermarkKey_injective sameKey
    exact different (by rw [samePartition, sameNamespace])

end Table

/-! ### Reading -/

namespace IdAuthority

variable {σ : Type}

theorem find?_watermark (table : Table) (partitionId namespaceId : UInt32) :
    (Table.slice table (watermarkKey partitionId namespaceId)
      (Slice.ofPrefix watermarkColumn)).find? (fun entry => entry.column = watermarkColumn) =
      (table.watermarkCell partitionId namespaceId).map fun value => ⟨watermarkColumn, value⟩ :=
  Table.find?_slice table (watermarkKey partitionId namespaceId)
    (rfl : (Slice.ofPrefix watermarkColumn).limit = none)
    (by decide : (Slice.ofPrefix watermarkColumn).contains watermarkColumn = true)

/-- Where the store shows a table, reading a watermark reads its cell. -/
theorem readWatermark_of_slice {authority : IdAuthority} {manager : Manager σ} {table : Table}
    {state : σ} {partitionId namespaceId : UInt32} {watermark : UInt64}
    (shown : manager.getSlice authority.store (watermarkKey partitionId namespaceId)
        (Slice.ofPrefix watermarkColumn) state =
      (.ok (Table.slice table (watermarkKey partitionId namespaceId)
        (Slice.ofPrefix watermarkColumn)), state))
    (encoded : watermarkOf (table.watermarkCell partitionId namespaceId) = .ok watermark) :
    authority.readWatermark manager (watermarkKey partitionId namespaceId) state =
      (.ok (table.watermarkCell partitionId namespaceId, watermark), state) := by
  rw [readWatermark, Action.bind_of_ok shown, find?_watermark]
  cases cell : table.watermarkCell partitionId namespaceId with
  | none =>
      rw [cell] at encoded
      rw [← Except.ok.inj encoded]
      rfl
  | some value =>
      rw [cell] at encoded
      have read : Encoding.leadingUInt64 value = .ok watermark := encoded
      simp only [Option.map_some, read]
      rfl

/-- A cell that is too short for a number makes the reading fail, which names the cell. -/
theorem readWatermark_of_damaged {authority : IdAuthority} {manager : Manager σ} {table : Table}
    {state : σ} {partitionId namespaceId : UInt32} {value : Bytes} {failure : StoreError}
    (shown : manager.getSlice authority.store (watermarkKey partitionId namespaceId)
        (Slice.ofPrefix watermarkColumn) state =
      (.ok (Table.slice table (watermarkKey partitionId namespaceId)
        (Slice.ofPrefix watermarkColumn)), state))
    (cell : table.watermarkCell partitionId namespaceId = some value)
    (unread : Encoding.leadingUInt64 value = .error failure) :
    authority.readWatermark manager (watermarkKey partitionId namespaceId) state =
      (.error (.corruption (.badWatermark (watermarkKey partitionId namespaceId) value)),
        state) := by
  rw [readWatermark, Action.bind_of_ok shown, find?_watermark, cell]
  simp only [Option.map_some, unread]
  rfl

theorem readWatermark_of_corrupted {authority : IdAuthority} {manager : Manager σ} {table : Table}
    {state : σ} {partitionId namespaceId : UInt32} {failure : StoreError}
    (shown : manager.getSlice authority.store (watermarkKey partitionId namespaceId)
        (Slice.ofPrefix watermarkColumn) state =
      (.ok (Table.slice table (watermarkKey partitionId namespaceId)
        (Slice.ofPrefix watermarkColumn)), state))
    (corrupted : watermarkOf (table.watermarkCell partitionId namespaceId) = .error failure) :
    ∃ failure, authority.readWatermark manager (watermarkKey partitionId namespaceId) state =
      (.error failure, state) := by
  cases cell : table.watermarkCell partitionId namespaceId with
  | none =>
      rw [cell] at corrupted
      exact nomatch corrupted
  | some value =>
      rw [cell] at corrupted
      exact ⟨_, readWatermark_of_damaged shown cell corrupted⟩

theorem readWatermark_of_error {authority : IdAuthority} {manager : Manager σ} {key : Bytes}
    {state after : σ} {failure : StoreError}
    (failed : manager.getSlice authority.store key (Slice.ofPrefix watermarkColumn) state =
      (.error failure, after)) :
    authority.readWatermark manager key state = (.error failure, after) :=
  Action.bind_of_error failed

/-! ### Blocks -/

/-- A block ends where its start and its size say, within the bound, and so without overflow. -/
theorem blockEnd?_eq_some_iff {watermark stop : UInt64} {shape : BlockShape} :
    blockEnd? watermark shape = some stop ↔
      watermark.toNat + shape.size.toNat = stop.toNat ∧ stop ≤ shape.upperBound := by
  have bounded := shape.upperBound.toNat_lt_size
  rw [blockEnd?, UInt64.le_iff_toNat_le]
  constructor
  · intro found
    split at found
    · rename_i fits
      rw [← Option.some.inj found, UInt64.toNat_ofNat_of_lt' (Nat.lt_of_le_of_lt fits bounded)]
      exact ⟨rfl, fits⟩
    · exact absurd found nofun
  · rintro ⟨sum, fits⟩
    rw [sum, if_pos fits, UInt64.ofNat_toNat]

/-- There is no block exactly where the sum exceeds the bound. -/
theorem blockEnd?_eq_none_iff {watermark : UInt64} {shape : BlockShape} :
    blockEnd? watermark shape = none ↔
      shape.upperBound.toNat < watermark.toNat + shape.size.toNat := by
  rw [blockEnd?]
  split
  · rename_i fits
    exact ⟨nofun, fun exceeds => absurd fits (Nat.not_le.2 exceeds)⟩
  · rename_i exceeds
    exact ⟨fun _ => Nat.not_le.1 exceeds, fun _ => rfl⟩

end IdAuthority

/-! ### Blocks side by side -/

/-- The blocks follow one another without gaps from `low` to `high`. -/
def Tiles (low : UInt64) : List IdBlock → UInt64 → Prop
  | [], high => low = high
  | block :: blocks, high => block.start = low ∧ Tiles block.stop blocks high

/-- A block that begins where the blocks end goes on with their row. -/
theorem Tiles.append {low high : UInt64} {blocks : List IdBlock} (tiles : Tiles low blocks high)
    {block : IdBlock} (next : block.start = high) : Tiles low (blocks ++ [block]) block.stop := by
  induction blocks generalizing low with
  | nil =>
      have sameStart : low = high := tiles
      exact ⟨next.trans sameStart.symm, rfl⟩
  | cons first blocks inductionHypothesis => exact ⟨tiles.1, inductionHypothesis tiles.2⟩

theorem Tiles.low_le {low high : UInt64} {blocks : List IdBlock} (tiles : Tiles low blocks high)
    (rising : ∀ block ∈ blocks, block.start ≤ block.stop) :
    ∀ block ∈ blocks, low ≤ block.start := by
  induction blocks generalizing low with
  | nil => exact nofun
  | cons first blocks inductionHypothesis =>
      obtain ⟨firstRises, othersRise⟩ := List.forall_mem_cons.1 rising
      have behind := inductionHypothesis tiles.2 othersRise
      have start : low = first.start := tiles.1.symm
      refine List.forall_mem_cons.2 ⟨UInt64.le_of_eq start, fun block member => ?_⟩
      rw [start]
      exact UInt64.le_trans firstRises (behind block member)

/-- Of blocks that follow one another each ends before the later ones start. -/
theorem Tiles.pairwise {low high : UInt64} {blocks : List IdBlock} (tiles : Tiles low blocks high)
    (rising : ∀ block ∈ blocks, block.start ≤ block.stop) :
    blocks.Pairwise fun earlier later => earlier.stop ≤ later.start := by
  induction blocks generalizing low with
  | nil => exact .nil
  | cons first blocks inductionHypothesis =>
      obtain ⟨_, othersRise⟩ := List.forall_mem_cons.1 rising
      exact List.pairwise_cons.2
        ⟨tiles.2.low_le othersRise, inductionHypothesis tiles.2 othersRise⟩

end GraphStore
