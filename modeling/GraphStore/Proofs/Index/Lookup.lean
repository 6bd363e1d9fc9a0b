import GraphStore.Proofs.Index.Keys
import GraphStore.Proofs.Index.Recording

/-!
Contract: what is found in composite indexes that share a table.

Owns the exactness of look-up (`IndexRecord.lookup_exact`): whatever elements have been recorded in
indexes of different numbers, looking up values finds those that were recorded in this index under
equal values, in ascending order, or in a unique index the last one of them.
-/

namespace GraphStore

/-- An element that is recorded in an index under a combination of values. -/
structure IndexRecord where
  index : IndexDescriptor
  values : List Value
  element : UInt64

namespace IndexRecord

def cell (record : IndexRecord) : Result IndexCell :=
  record.index.indexCell record.values record.element

/-- The record is one of the index, and its values are coerced to the given ones, where the signs of
zeros make no difference. -/
def Under (record : IndexRecord) (index : IndexDescriptor) (coerced : List Value) : Prop :=
  record.index = index ∧ ∃ own, index.Coerces record.values own ∧
    own.map Value.dropZeroSign = coerced.map Value.dropZeroSign

/-- What look-up in an index is to find behind a sequence of records. -/
structure Finds (records : List IndexRecord) (index : IndexDescriptor) (coerced : List Value)
    (elements : List UInt64) : Prop where
  ascending : index.unique = false → elements.Pairwise (· < ·)
  recorded : index.unique = false → ∀ element, element ∈ elements ↔
    ∃ record ∈ records, record.Under index coerced ∧ record.element = element
  last : index.unique = true → (∃ record ∈ records, record.Under index coerced) →
    ∃ front record back, records = front ++ record :: back ∧ record.Under index coerced ∧
      (∀ later ∈ back, ¬ later.Under index coerced) ∧ elements = [record.element]
  none : (∀ record ∈ records, ¬ record.Under index coerced) → elements = []

variable {record : IndexRecord} {index : IndexDescriptor} {values coerced : List Value}

/-- The cell of a record stands in the row of values that are equal to its own, if no other index
has the number of this one. -/
theorem key_eq_iff (coerces : index.Coerces values coerced)
    (single : record.index.id = index.id → record.index = index) {cell : IndexCell}
    (made : record.cell = .ok cell) :
    cell.key = index.keyOf coerced ↔ record.Under index coerced := by
  obtain ⟨key, keyed, made⟩ := Result.bind_eq_ok.1 made
  obtain rfl := Except.ok.inj made
  obtain ⟨composite, own, ownCoerces, rfl⟩ := IndexDescriptor.compositeKey_eq_ok.1 keyed
  constructor
  · intro same
    have front : record.index.keyOf own <+: index.keyOf coerced := same ▸ List.prefix_refl _
    obtain rfl := single (IndexDescriptor.id_eq_of_isPrefix front)
    exact ⟨rfl, own, ownCoerces, (IndexDescriptor.keyOf_eq_iff ownCoerces coerces).1 same⟩
  · rintro ⟨rfl, other, otherCoerces, same⟩
    have otherKeyed : record.index.compositeKey record.values = .ok (record.index.keyOf other) :=
      IndexDescriptor.compositeKey_eq_ok.2 ⟨composite, other, otherCoerces, rfl⟩
    rw [Except.ok.inj (keyed.symm.trans otherKeyed)]
    exact (IndexDescriptor.keyOf_eq_iff otherCoerces coerces).2 same

/-! ### The row of a combination of values -/

/-- The row that look-up reads behind the writes of cells to an empty table. -/
def row (cells : List IndexCell) (index : IndexDescriptor) (coerced : List Value) : List Entry :=
  Table.slice (cells.foldl IndexCell.write .empty) (index.keyOf coerced) Slice.fullRow

section Row

variable {records : List IndexRecord} {cells : List IndexCell} {entry : Entry}
  (coerces : index.Coerces values coerced)
  (single : ∀ record ∈ records, record.index.id = index.id → record.index = index)
  (made : records.mapM cell = .ok cells)

theorem mem_row : entry ∈ row cells index coerced ↔
    Slice.fullRow.contains entry.column = true ∧
      IndexCell.overlay (Table.cell? .empty) cells (index.keyOf coerced) entry.column =
        some entry.value := by
  rw [row, Table.mem_slice _ _ rfl, IndexCell.cell?_foldl_write]

include coerces single made

/-- Each entry of the row is that of a record under equal values. -/
theorem record_of_mem_row (shown : entry ∈ row cells index coerced) :
    ∃ record ∈ records, record.Under index coerced ∧ entry = index.entryOf record.element := by
  obtain ⟨-, written⟩ := mem_row.1 shown
  obtain ⟨cell, member, placed, value⟩ := IndexCell.exists_of_overlay rfl written
  obtain ⟨keyed, column⟩ := IndexCell.isAt_iff.1 placed
  obtain ⟨record, listed, own⟩ := (Result.mem_of_mapM made).1 member
  have under := (key_eq_iff coerces (single record listed) own).1 keyed
  refine ⟨record, listed, under, ?_⟩
  obtain ⟨rfl, -⟩ := under
  rw [← IndexDescriptor.entry_eq_entryOf own, show entry = ⟨entry.column, entry.value⟩ from rfl,
    ← column, ← value]

/-- The entry of a record under equal values is in the row, if no later one has its place. -/
theorem mem_row_of_last {front back : List IndexRecord} (split : records = front ++ record :: back)
    (under : record.Under index coerced)
    (kept : ∀ later ∈ back, later.Under index coerced →
      (index.entryOf later.element).column = (index.entryOf record.element).column →
      index.entryOf later.element = index.entryOf record.element) :
    index.entryOf record.element ∈ row cells index coerced := by
  subst split
  obtain ⟨frontCells, own, backCells, rfl, -, ownMade, inBack⟩ := Result.mapM_split made
  have keyed := (key_eq_iff coerces
    (single record (List.mem_append_right _ List.mem_cons_self)) ownMade).2 under
  obtain ⟨rfl, -⟩ := id under
  have written := IndexDescriptor.entry_eq_entryOf ownMade
  rw [← written]
  refine mem_row.2 ⟨IndexDescriptor.fullRow_contains_indexCell ownMade, ?_⟩
  rw [IndexCell.overlay_append]
  refine IndexCell.overlay_of_agree ⟨own, List.mem_cons_self, IndexCell.isAt_iff.2 ⟨keyed, rfl⟩⟩ ?_
  intro other member placed
  obtain ⟨otherKeyed, column⟩ := IndexCell.isAt_iff.1 placed
  rcases List.mem_cons.1 member with rfl | behind
  · rfl
  · obtain ⟨later, listed, laterMade⟩ := (Result.mem_of_mapM inBack).1 behind
    have laterUnder := (key_eq_iff coerces (single later
      (List.mem_append_right _ (List.mem_cons_of_mem _ listed))) laterMade).1 otherKeyed
    have laterWritten := IndexDescriptor.entry_eq_entryOf laterMade
    rw [laterUnder.1] at laterWritten
    rw [written, laterWritten] at column ⊢
    rw [kept later listed laterUnder column]

theorem row_of_none (none : ∀ record ∈ records, ¬ record.Under index coerced) :
    row cells index coerced = [] := by
  apply List.eq_nil_iff_forall_not_mem.2
  intro entry shown
  obtain ⟨record, listed, under, -⟩ := record_of_mem_row coerces single made shown
  exact none record listed under

/-- The row of an index that is not unique has an entry for each element, under its number. -/
theorem mem_row_of_shared (shared : index.unique = false) : entry ∈ row cells index coerced ↔
    ∃ record ∈ records, record.Under index coerced ∧ entry = index.entryOf record.element := by
  constructor
  · exact record_of_mem_row coerces single made
  · rintro ⟨record, listed, under, rfl⟩
    obtain ⟨front, back, split⟩ := List.append_of_mem listed
    refine mem_row_of_last coerces single made split under fun later _ _ column => ?_
    rw [IndexDescriptor.entryOf_of_shared shared,
      IndexDescriptor.entryOf_of_shared shared] at column ⊢
    exact congrArg (Entry.mk · []) column

/-- The row of a unique index has the entry of the last record under equal values. -/
theorem row_of_unique (unique : index.unique = true) {front back : List IndexRecord}
    (split : records = front ++ record :: back) (under : record.Under index coerced)
    (last : ∀ later ∈ back, ¬ later.Under index coerced) :
    row cells index coerced = [index.entryOf record.element] := by
  have shown := mem_row_of_last coerces single made split under
    fun later listed laterUnder _ => absurd laterUnder (last later listed)
  have columns : ∀ entry ∈ row cells index coerced,
      entry.column = IndexDescriptor.uniqueColumn := by
    intro entry listed
    obtain ⟨other, -, -, rfl⟩ := record_of_mem_row coerces single made listed
    rw [IndexDescriptor.entryOf_of_unique unique]
  have ascending : (row cells index coerced).Pairwise fun left right =>
      left.column < right.column := Table.ascending_slice _ _ rfl
  generalize row cells index coerced = entries at shown columns ascending
  match entries with
  | [entry] => rw [List.mem_singleton.1 shown]
  | first :: second :: rest =>
      -- two entries would be in one column
      have less := List.rel_of_pairwise_cons ascending List.mem_cons_self
      rw [columns first List.mem_cons_self,
        columns second (List.mem_cons_of_mem _ List.mem_cons_self)] at less
      exact absurd less (List.lt_irrefl _)

/-! ### Elements -/

/-- The row of values leads to the elements that were recorded under equal ones. -/
theorem finds_row : ∃ elements, (row cells index coerced).mapM index.elementOfEntry = .ok elements ∧
    Finds records index coerced elements := by
  have readable : ∀ entry ∈ row cells index coerced, ∃ element,
      index.elementOfEntry entry = .ok element := by
    intro entry shown
    obtain ⟨record, -, -, rfl⟩ := record_of_mem_row coerces single made shown
    exact ⟨record.element, index.elementOfEntry_entryOf record.element⟩
  obtain ⟨elements, ran⟩ := Result.mapM_of_ok readable
  refine ⟨elements, ran, ?_⟩
  exact {
    ascending := fun shared => by
      refine Result.pairwise_of_mapM ran (Table.ascending_slice _ _ rfl) ?_
      intro left leftShown right rightShown less first second leftRead rightRead
      obtain ⟨one, -, -, rfl⟩ := record_of_mem_row coerces single made leftShown
      obtain ⟨other, -, -, rfl⟩ := record_of_mem_row coerces single made rightShown
      rw [index.elementOfEntry_entryOf] at leftRead rightRead
      obtain rfl := Except.ok.inj leftRead
      obtain rfl := Except.ok.inj rightRead
      rw [IndexDescriptor.entryOf_of_shared shared,
        IndexDescriptor.entryOf_of_shared shared] at less
      exact Bytes.lt_of_ofUInt64_lt less
    recorded := fun shared element => by
      rw [Result.mem_of_mapM ran]
      constructor
      · rintro ⟨entry, shown, read⟩
        obtain ⟨record, listed, under, rfl⟩ := record_of_mem_row coerces single made shown
        exact ⟨record, listed, under,
          Except.ok.inj ((index.elementOfEntry_entryOf record.element).symm.trans read)⟩
      · rintro ⟨record, listed, under, rfl⟩
        exact ⟨_, (mem_row_of_shared coerces single made shared).2 ⟨record, listed, under, rfl⟩,
          index.elementOfEntry_entryOf record.element⟩
    last := fun unique some => by
      obtain ⟨front, record, back, split, under, last⟩ := exists_last some
      rw [row_of_unique coerces single made unique split under last, List.mapM_cons,
        index.elementOfEntry_entryOf] at ran
      exact ⟨front, record, back, split, under, last, (Except.ok.inj ran).symm⟩
    none := fun none => by
      rw [row_of_none coerces single made none] at ran
      exact (Except.ok.inj ran).symm }

end Row

/-- In a table that composite indexes with numbers of their own share, looking up values that coerce
to the field types of one of them leads to exactly the elements that were recorded in it under equal
values, in ascending order; in a unique index, to the last one of them. -/
theorem lookup_exact {indexes : List IndexDescriptor}
    (composite : ∀ index ∈ indexes, index.isComposite = true)
    (apart : (indexes.map IndexDescriptor.id).Nodup) {records : List IndexRecord}
    (indexed : ∀ record ∈ records, record.index ∈ indexes ∧
      ∃ own, record.index.Coerces record.values own)
    {index : IndexDescriptor} (member : index ∈ indexes) {values coerced : List Value}
    (coerces : index.Coerces values coerced) :
    ∃ cells key slice elements, records.mapM cell = .ok cells ∧
      index.lookup values = .ok (key, slice) ∧
      (Table.slice (cells.foldl IndexCell.write .empty) key slice).mapM index.elementOfEntry =
        .ok elements ∧
      Finds records index coerced elements := by
  have cellOf : ∀ record ∈ records, ∃ cell, record.cell = .ok cell := by
    intro record listed
    obtain ⟨inFamily, own, ownCoerces⟩ := indexed record listed
    have keyed := IndexDescriptor.compositeKey_eq_ok.2
      ⟨composite record.index inFamily, own, ownCoerces, rfl⟩
    exact ⟨_, Result.bind_eq_ok.2 ⟨_, keyed, rfl⟩⟩
  have single : ∀ record ∈ records, record.index.id = index.id → record.index = index :=
    fun record listed => List.inj_on_of_nodup_map apart (indexed record listed).1 member
  have keyed := IndexDescriptor.compositeKey_eq_ok.2 ⟨composite index member, coerced, coerces, rfl⟩
  obtain ⟨cells, made⟩ := Result.mapM_of_ok cellOf
  obtain ⟨elements, ran, finds⟩ := finds_row coerces single made
  exact ⟨cells, index.keyOf coerced, Slice.fullRow, elements, made,
    Result.bind_eq_ok.2 ⟨_, keyed, rfl⟩, ran, finds⟩

/-- A unique index over a byte string. -/
def byTrace : IndexDescriptor :=
  .asUnique (.composite "byTrace" 44 [⟨"trace", .new .bytes .single⟩])

/-- Records of two indexes: in one of them under both zeros, and one element twice; in the other one
two elements under the same bytes. -/
def mixedRecords : List IndexRecord :=
  [⟨IndexDescriptor.byReading, [.text "a", .double .negativeZero, .bytes [0, 255]], 300⟩,
    ⟨byTrace, [.bytes [0]], 7⟩,
    ⟨IndexDescriptor.byReading, [.text "a", .int 0, .bytes [0, 255]], 5⟩,
    ⟨IndexDescriptor.byReading, [.text "a", .int 1, .bytes [0, 255]], 6⟩,
    ⟨byTrace, [.bytes [0]], 2⟩,
    ⟨IndexDescriptor.byReading, [.text "a", .double .zero, .bytes [0, 255]], 300⟩]

/-- Both zeros lead to one row, and of the two elements under the same bytes in a unique index the
later one is found. -/
theorem lookup_exact_mixedRecords :
    Finds mixedRecords .byReading [.text "a", .double .zero, .bytes [0, 255]] [5, 300] ∧
    Finds mixedRecords byTrace [.bytes [0]] [2] := by
  have composite : ∀ index ∈ [.byReading, byTrace], index.isComposite = true :=
    List.forall_mem_cons.2 ⟨rfl, List.forall_mem_cons.2 ⟨rfl, nofun⟩⟩
  have apart : ([.byReading, byTrace].map IndexDescriptor.id).Nodup := by decide
  have readings : ∀ {values own : List Value}, IndexDescriptor.byReading.Coerces values own →
      .byReading ∈ [.byReading, byTrace] ∧
        ∃ own, IndexDescriptor.byReading.Coerces values own :=
    fun coerces => ⟨List.mem_cons_self, _, coerces⟩
  have traces : ∀ {values own : List Value}, byTrace.Coerces values own →
      byTrace ∈ [.byReading, byTrace] ∧ ∃ own, byTrace.Coerces values own :=
    fun coerces => ⟨List.mem_cons_of_mem _ List.mem_cons_self, _, coerces⟩
  have indexed : ∀ record ∈ mixedRecords, record.index ∈ [.byReading, byTrace] ∧
      ∃ own, record.index.Coerces record.values own := by
    simp only [mixedRecords, List.forall_mem_cons]
    exact ⟨readings (.cons rfl (.cons rfl (.cons rfl .nil))), traces (.cons rfl .nil),
      readings (.cons rfl (.cons rfl (.cons rfl .nil))),
      readings (.cons rfl (.cons rfl (.cons rfl .nil))), traces (.cons rfl .nil),
      readings (.cons rfl (.cons rfl (.cons rfl .nil))), nofun⟩
  constructor
  · obtain ⟨cells, key, slice, elements, made, looked, ran, finds⟩ := lookup_exact composite apart
      indexed (List.mem_cons_self : IndexDescriptor.byReading ∈ _)
      (.cons rfl (.cons rfl (.cons rfl .nil)) :
        IndexDescriptor.byReading.Coerces [.text "a", .double .zero, .bytes [0, 255]] _)
    obtain rfl := Except.ok.inj made
    obtain ⟨rfl, rfl⟩ := Prod.mk.inj (Except.ok.inj looked)
    obtain rfl : [5, 300] = elements := by
      apply Except.ok.inj
      rw [← ran]
      decide +kernel
    exact finds
  · obtain ⟨cells, key, slice, elements, made, looked, ran, finds⟩ := lookup_exact composite apart
      indexed (List.mem_cons_of_mem _ List.mem_cons_self : byTrace ∈ _)
      (.cons rfl .nil : byTrace.Coerces [.bytes [0]] _)
    obtain rfl := Except.ok.inj made
    obtain ⟨rfl, rfl⟩ := Prod.mk.inj (Except.ok.inj looked)
    obtain rfl : [2] = elements := by
      apply Except.ok.inj
      rw [← ran]
      decide +kernel
    exact finds

end IndexRecord

end GraphStore
