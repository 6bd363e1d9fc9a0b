import GraphStore.Proofs.Cells
import GraphStore.Proofs.Encoding.Numbers
import GraphStore.Proofs.Ids.Watermark
import GraphStore.Proofs.Scan.Partitions
import GraphStore.Proofs.Slice.Bounds
import GraphStore.Scan.Removal

/-!
Contract: which cells of its store belong to an index.

Owns the cells of an index (`IndexDescriptor.owns`), said of the first eight bytes of a key and of a
column, and what its removal makes of them: the target that is looked up
(`RemovalTarget.resolve_of_removable`) takes in the cells of the index and no other ones
(`IndexDescriptor.owns_iff`).
-/

namespace GraphStore

namespace IndexDescriptor

/-- Whether a cell belongs to the index: it stands in a row that begins with the number of a
composite index, or in the columns of a relation-type index and the row of an element that is not
reserved. -/
def owns (index : IndexDescriptor) (schema : Schema) (key column : Bytes) : Bool :=
  8 ≤ key.length && match index.indexType with
    | .composite => key.take 8 = Bytes.ofUInt64 index.id
    | .relationType start stop =>
      !schema.isReserved (UInt64.ofNat (Bytes.toNat (key.take 8))) &&
        (!(column < start) && column < stop)
    | .mixed _ => false

def home (index : IndexDescriptor) (options : IndexOptions) : String :=
  match index.indexType with
  | .relationType _ _ => options.edgeStore
  | _ => options.indexStore

def span (index : IndexDescriptor) : Slice :=
  match index.indexType with
  | .relationType start stop => ⟨start, stop, none⟩
  | _ => .fullRow

/-- An index that can be removed from a table: the rows of a composite index hold what is recorded
for elements and nothing else, and the column range of a relation-type index is not inverted. -/
def Removable (index : IndexDescriptor) (table : Table) : Prop :=
  match index.indexType with
  | .composite => ∀ key column value, Table.cell? table key column = some value →
      key.take 8 = Bytes.ofUInt64 index.id →
      ∃ values element, index.indexCell values element = .ok ⟨key, ⟨column, value⟩⟩
  | .relationType start stop => ¬ stop < start
  | .mixed _ => False

def removal (index : IndexDescriptor) (options : IndexOptions) : RemovalTarget :=
  ⟨index, index.home options, index.span⟩

theorem span_uncapped (index : IndexDescriptor) : index.span.limit = none := by
  unfold span
  split <;> rfl

/-- What is recorded for an element lies in the slice that stands for a whole row. -/
theorem fullRow_contains_indexCell {index : IndexDescriptor} {values : List Value}
    {element : UInt64} {cell : IndexCell} (made : index.indexCell values element = .ok cell) :
    Slice.fullRow.contains cell.entry.column = true := by
  have column : cell.entry.column = uniqueColumn ∨
      cell.entry.column = Bytes.ofUInt64 element := by
    unfold indexCell at made
    cases keyed : index.compositeKey values with
    | error failure =>
        rw [keyed] at made
        exact nomatch made
    | ok key =>
        rw [keyed] at made
        rw [← Except.ok.inj made]
        cases index.unique
        · exact .inr rfl
        · exact .inl rfl
  have bounds : 0 < cell.entry.column.length ∧ cell.entry.column.length < 128 := by
    rcases column with unique | element
    · rw [unique]
      decide
    · rw [element, Bytes.length_ofUInt64]
      decide
  have short : ¬ Bytes.ones 128 <+: cell.entry.column :=
    (Bytes.lt_ones_iff 128).1 (Bytes.lt_ones_of_length bounds.2)
  exact Slice.contains_fullRow.2 ⟨List.ne_nil_of_length_pos bounds.1, short⟩

/-- A table with fewer cells stays removable. -/
theorem Removable.mono {index : IndexDescriptor} {before after : Table}
    (removable : index.Removable before)
    (kept : ∀ key column value, Table.cell? after key column = some value →
      Table.cell? before key column = some value) : index.Removable after := by
  unfold Removable at removable ⊢
  cases isType : index.indexType with
  | composite =>
      rw [isType] at removable
      intro key column value held front
      exact removable key column value (kept key column value held) front
  | mixed backing =>
      rw [isType] at removable
      exact removable
  | relationType start stop =>
      rw [isType] at removable
      exact removable

/-- The rows and columns of the target are those of the index. -/
theorem owns_iff {index : IndexDescriptor} {table : Table} (removable : index.Removable table)
    (schema : Schema) (options : IndexOptions) {key column : Bytes}
    (held : (Table.cell? table key column).isSome = true) :
    index.owns schema key column = true ↔
      (index.removal options).filter schema key = true ∧ index.span.contains column = true := by
  have shown : (index.removal options).index = index := rfl
  unfold owns RemovalTarget.filter
  by_cases long : 8 ≤ key.length
  · rw [Encoding.leadingUInt64_of_long long, shown]
    unfold Removable at removable
    unfold span
    cases isType : index.indexType with
    | mixed backing =>
        rw [isType] at removable
        exact removable.elim
    | relationType start stop => simp [long, Slice.contains]
    | composite =>
        rw [isType] at removable
        obtain ⟨value, isValue⟩ := Option.isSome_iff_exists.1 held
        have inside : key.take 8 = Bytes.ofUInt64 index.id →
            Slice.fullRow.contains column = true := by
          intro front
          obtain ⟨values, element, made⟩ := removable key column value isValue front
          exact fullRow_contains_indexCell made
        simp only [long, decide_true, Bool.true_and, decide_eq_true_eq,
          Encoding.ofNat_toNat_take long]
        constructor
        · intro front
          exact ⟨front, inside front⟩
        · exact And.left
  · rw [Encoding.leadingUInt64_of_short (Nat.lt_of_not_le long)]
    simp [long]

end IndexDescriptor

/-! ### The target -/

namespace RemovalTarget

variable {schema : Schema} {options : IndexOptions} {name : String} {index : IndexDescriptor}
  (found : schema.index name = .ok index)
include found

/-- A disabled index with rows of its own is resolved to their slice. -/
theorem resolve_of_removable (disabled : index.status = .disabled) {table : Table}
    (removable : index.Removable table) :
    resolve schema options name = .ok (index.removal options) := by
  unfold resolve IndexDescriptor.isMixed IndexDescriptor.relationSlice?
  unfold IndexDescriptor.Removable at removable
  unfold IndexDescriptor.removal IndexDescriptor.home IndexDescriptor.span
  rw [found]
  cases isType : index.indexType with
  | composite => simp [bind, Except.bind, disabled, isType, pure, Except.pure]
  | mixed backing =>
      rw [isType] at removable
      exact removable.elim
  | relationType start stop =>
      rw [isType] at removable
      have ordered : ¬ stop < start := removable
      simp [bind, Except.bind, disabled, isType, Slice.between, ordered, pure, Except.pure]

/-- An external index is refused. -/
theorem resolve_of_mixed (mixed : index.isMixed = true) :
    resolve schema options name = .error (.unsupported .mixedRemoval) := by
  unfold resolve
  rw [found]
  simp [bind, Except.bind, mixed, throw, throwThe, MonadExceptOf.throw]

/-- An index that is not disabled is refused. -/
theorem resolve_of_status (other : index.isMixed = false) (status : index.status ≠ .disabled) :
    resolve schema options name =
      .error (.precondition (.notDisabled name index.status.label)) := by
  unfold resolve
  rw [found]
  simp [bind, Except.bind, other, status, throw, throwThe, MonadExceptOf.throw]

end RemovalTarget

end GraphStore
