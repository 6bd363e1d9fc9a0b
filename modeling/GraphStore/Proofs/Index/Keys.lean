import GraphStore.Index.Composite
import GraphStore.Proofs.Ids.Watermark
import GraphStore.Proofs.Results
import GraphStore.Proofs.Value.Order

/-!
Contract: the row keys of composite indexes.

Owns what a row key is (`compositeKey_eq_ok`): the number of the index in front of the stored forms
of what the values are coerced to. Row keys decode to the coerced values and are told apart by them
and by the index (`compositeKey_identifies`), and they sort as the coerced values, field by field
(`compositeKey_sorts`).
-/

namespace GraphStore

open Encoding

/-! ### Coerced values -/

/-- A field of the type can hold the value. -/
structure DataType.Holds (dataType : DataType) (value : Value) : Prop where
  typed : value.dataType = dataType
  verified : value.verify = .ok ()

/-- As many values as types, each with what it is coerced to. -/
inductive CoerceAll : List DataType → List Value → List Value → Prop
  | nil : CoerceAll [] [] []
  | cons {dataType : DataType} {value first : Value} {dataTypes : List DataType}
      {values coerced : List Value} (head : dataType.coerce value = .ok first)
      (tail : CoerceAll dataTypes values coerced) :
      CoerceAll (dataType :: dataTypes) (value :: values) (first :: coerced)

/-- The values coerce to the field types of the index. -/
def IndexDescriptor.Coerces (index : IndexDescriptor) (values coerced : List Value) : Prop :=
  CoerceAll index.fieldTypes values coerced

namespace DataType

variable {target : DataType} {value coerced : Value} {written : Bytes}

theorem dataType_of_convert? (converts : target.convert? value = some coerced) :
    coerced.dataType = target := by
  cases target <;> obtain ⟨content, -, rfl⟩ := Option.map_eq_some_iff.1 converts <;> rfl

theorem convert_eq_ok : target.convert value = .ok coerced ↔
    target.convert? value = some coerced := by
  rw [convert]
  cases target.convert? value <;> simp

theorem verify_of_ne_double (notDouble : value.dataType ≠ .double) : value.verify = .ok () := by
  cases value with
  | double number => exact absurd rfl notDouble
  | _ => rfl

/-- Verifying every type, not doubles alone, would come to the same. -/
theorem coerce_eq (target : DataType) (value : Value) : target.coerce value = do
    let converted ← target.convert value
    converted.verify
    return converted := by
  by_cases isDouble : target = .double
  · rw [isDouble]
    rfl
  · have unchecked : target.coerce value = target.convert value := by
      cases target with
      | double => exact absurd rfl isDouble
      | _ => rfl
    rw [unchecked]
    cases converts : target.convert value with
    | error failure => rfl
    | ok converted =>
        have typed := dataType_of_convert? (convert_eq_ok.1 converts)
        have verified := verify_of_ne_double (typed.symm ▸ isDouble)
        show _ = converted.verify >>= fun _ => pure converted
        rw [verified]
        rfl

/-- Coercion is conversion, and verification of what has come out. -/
theorem coerce_eq_ok : target.coerce value = .ok coerced ↔
    target.convert value = .ok coerced ∧ coerced.verify = .ok () := by
  rw [coerce_eq, Result.bind_eq_ok]
  constructor
  · rintro ⟨converted, converts, checked⟩
    obtain ⟨⟨⟩, verified, same⟩ := Result.bind_eq_ok.1 checked
    obtain rfl := Except.ok.inj same
    exact ⟨converts, verified⟩
  · rintro ⟨converts, verified⟩
    exact ⟨coerced, converts, Result.bind_eq_ok.2 ⟨(), verified, rfl⟩⟩

/-- What a value is coerced to fits a field of the type. -/
theorem holds_of_coerce (coerces : target.coerce value = .ok coerced) : target.Holds coerced := by
  obtain ⟨converts, verified⟩ := coerce_eq_ok.1 coerces
  exact ⟨dataType_of_convert? (convert_eq_ok.1 converts), verified⟩

/-- What is written is the stored form of what a value is coerced to. -/
theorem write_eq_ok : target.write value = .ok written ↔
    ∃ coerced, target.coerce value = .ok coerced ∧ written = coerced.fieldBytes := by
  rw [write, Result.bind_eq_ok]
  constructor
  · rintro ⟨converted, converts, checked⟩
    obtain ⟨⟨⟩, verified, same⟩ := Result.bind_eq_ok.1 checked
    exact ⟨converted, coerce_eq_ok.2 ⟨converts, verified⟩, (Except.ok.inj same).symm⟩
  · rintro ⟨coerced, coerces, rfl⟩
    obtain ⟨converts, verified⟩ := coerce_eq_ok.1 coerces
    exact ⟨coerced, converts, Result.bind_eq_ok.2 ⟨(), verified, rfl⟩⟩

end DataType

namespace CoerceAll

open IndexDescriptor

variable {dataTypes : List DataType} {values coerced otherValues otherCoerced : List Value}

theorem length_eq (coerces : CoerceAll dataTypes values coerced) :
    values.length = dataTypes.length := by
  induction coerces with
  | nil => rfl
  | cons _ _ inductionHypothesis => rw [List.length_cons, List.length_cons, inductionHypothesis]

theorem writeValues_eq (coerces : CoerceAll dataTypes values coerced) :
    writeValues dataTypes values = .ok (coerced.flatMap Value.fieldBytes) := by
  induction coerces with
  | nil => rfl
  | cons head _ inductionHypothesis =>
      exact Result.bind_eq_ok.2 ⟨_, DataType.write_eq_ok.2 ⟨_, head, rfl⟩,
        Result.bind_eq_ok.2 ⟨_, inductionHypothesis, rfl⟩⟩

/-- Values that are written have been coerced. -/
theorem of_writeValues {written : Bytes} (lengths : values.length = dataTypes.length)
    (writes : writeValues dataTypes values = .ok written) :
    ∃ coerced, CoerceAll dataTypes values coerced := by
  induction dataTypes generalizing values written with
  | nil =>
      obtain rfl := List.eq_nil_of_length_eq_zero lengths
      exact ⟨[], .nil⟩
  | cons dataType dataTypes inductionHypothesis =>
      cases values with
      | nil => exact nomatch lengths
      | cons value values =>
          obtain ⟨front, wrote, writes⟩ := Result.bind_eq_ok.1 writes
          obtain ⟨back, others, -⟩ := Result.bind_eq_ok.1 writes
          obtain ⟨first, head, -⟩ := DataType.write_eq_ok.1 wrote
          obtain ⟨coerced, tail⟩ := inductionHypothesis (Nat.succ.inj lengths) others
          exact ⟨first :: coerced, .cons head tail⟩

/-- Readers of the types take the stored forms, one behind the other. -/
theorem takes_readValues (coerces : CoerceAll dataTypes values coerced) :
    (readValues dataTypes).Takes (coerced.flatMap Value.fieldBytes)
      (coerced.map Value.dropZeroSign) := by
  induction coerces with
  | nil => exact Read.Takes.pure []
  | cons head _ inductionHypothesis =>
      obtain ⟨rfl, verified⟩ := DataType.holds_of_coerce head
      exact (Value.takes_read verified).bind (inductionHypothesis.map _)

/-- The stored forms in sequence rank as the values, field by field. -/
theorem ranks_flatMap (coerces : CoerceAll dataTypes values coerced)
    (otherCoerces : CoerceAll dataTypes otherValues otherCoerced) :
    Bytes.Ranks (coerced.flatMap Value.fieldBytes) (otherCoerced.flatMap Value.fieldBytes)
      (List.compareLex Value.order coerced otherCoerced) := by
  induction coerces generalizing otherValues otherCoerced with
  | nil =>
      cases otherCoerces
      rfl
  | cons head _ inductionHypothesis =>
      cases otherCoerces with
      | cons otherHead otherTail =>
          have held := DataType.holds_of_coerce head
          have otherHeld := DataType.holds_of_coerce otherHead
          rw [List.compareLex_cons_cons, List.flatMap_cons, List.flatMap_cons]
          exact (Value.ranks_fieldBytes held.verified otherHeld.verified
            (held.typed.trans otherHeld.typed.symm)).append (inductionHypothesis otherTail)

/-- Coerced lists that compare as equal differ in signs of zeros only. -/
theorem compareLex_eq_iff (coerces : CoerceAll dataTypes values coerced)
    (otherCoerces : CoerceAll dataTypes otherValues otherCoerced) :
    List.compareLex Value.order coerced otherCoerced = .eq ↔
      coerced.map Value.dropZeroSign = otherCoerced.map Value.dropZeroSign := by
  induction coerces generalizing otherValues otherCoerced with
  | nil =>
      cases otherCoerces
      exact ⟨fun _ => rfl, fun _ => rfl⟩
  | cons head _ inductionHypothesis =>
      cases otherCoerces with
      | cons otherHead otherTail =>
          have held := DataType.holds_of_coerce head
          have otherHeld := DataType.holds_of_coerce otherHead
          rw [List.compareLex_cons_cons, Ordering.then_eq_eq, inductionHypothesis otherTail,
            Value.order_eq_iff held.verified otherHeld.verified
              (held.typed.trans otherHeld.typed.symm), List.map_cons, List.map_cons,
            List.cons.injEq]

end CoerceAll

namespace IndexDescriptor

variable {index other : IndexDescriptor} {values coerced otherValues otherCoerced : List Value}
  {key otherKey : Bytes}

/-! ### Row keys -/

def keyOf (index : IndexDescriptor) (coerced : List Value) : Bytes :=
  Bytes.ofUInt64 index.id ++ coerced.flatMap Value.fieldBytes

theorem checkComposite_eq_ok : index.checkComposite values = .ok () ↔
    index.isComposite = true ∧ values.length = index.fieldTypes.length := by
  rw [checkComposite, fieldTypes, List.length_map]
  cases index.isComposite <;> by_cases arity : values.length = index.fields.length <;>
    simp [arity, bind, Except.bind, pure, Except.pure, throw, throwThe, MonadExceptOf.throw]

/-- A composite index has a row key for the values that coerce to its types, and for no others. -/
theorem compositeKey_eq_ok : index.compositeKey values = .ok key ↔
    index.isComposite = true ∧
      ∃ coerced, index.Coerces values coerced ∧ key = index.keyOf coerced := by
  rw [compositeKey, Result.bind_eq_ok]
  constructor
  · rintro ⟨⟨⟩, checked, written⟩
    obtain ⟨composite, lengths⟩ := checkComposite_eq_ok.1 checked
    obtain ⟨fields, writes, same⟩ := Result.bind_eq_ok.1 written
    obtain ⟨coerced, coerces⟩ := CoerceAll.of_writeValues lengths writes
    obtain rfl := Except.ok.inj (coerces.writeValues_eq.symm.trans writes)
    exact ⟨composite, coerced, coerces, (Except.ok.inj same).symm⟩
  · rintro ⟨composite, coerced, coerces, rfl⟩
    exact ⟨(), checkComposite_eq_ok.2 ⟨composite, coerces.length_eq⟩,
      Result.bind_eq_ok.2 ⟨_, coerces.writeValues_eq, rfl⟩⟩

/-- Reading a row key of the index gives the coerced values, zeros without their signs. -/
theorem decodeValues_keyOf (coerces : index.Coerces values coerced)
    (within : (index.keyOf coerced).length < Word.count 64) :
    index.decodeValues (index.keyOf coerced) = .ok (coerced.map Value.dropZeroSign) := by
  have fields : (readValues index.fieldTypes >>= fun values => do
      Read.finish (.trailingIndexKey · (index.keyOf coerced))
      return values).TakesAll (coerced.flatMap Value.fieldBytes ++ [])
        (coerced.map Value.dropZeroSign) :=
    coerces.takes_readValues.bindAll (takesAll_finish _ _)
  rw [List.append_nil] at fields
  have all : (index.readKey (index.keyOf coerced)).TakesAll (index.keyOf coerced)
      (coerced.map Value.dropZeroSign) := by
    refine (takes_uint64 index.id).bindAll ?_
    rw [if_neg (not_not_intro rfl)]
    exact fields
  rw [decodeValues, Read.answer, Cursor.start, all 0 (by rwa [Nat.zero_add])]

theorem indexIdOfKey_keyOf (index : IndexDescriptor) (coerced : List Value) :
    indexIdOfKey (index.keyOf coerced) = .ok index.id :=
  leadingUInt64_append index.id _

/-- A row key that another one begins with has the number of the same index. -/
theorem id_eq_of_isPrefix (front : index.keyOf coerced <+: other.keyOf otherCoerced) :
    index.id = other.id := by
  obtain ⟨behind, same⟩ := front
  rw [keyOf, keyOf, List.append_assoc] at same
  have lengths : (Bytes.ofUInt64 index.id).length = (Bytes.ofUInt64 other.id).length := by
    rw [Bytes.length_ofUInt64, Bytes.length_ofUInt64]
  exact Bytes.ofUInt64_injective (List.append_inj same lengths).1

/-- Row keys of an index rank as the coerced values, field by field. -/
theorem ranks_keyOf (coerces : index.Coerces values coerced)
    (otherCoerces : index.Coerces otherValues otherCoerced) :
    (index.keyOf coerced).Ranks (index.keyOf otherCoerced)
      (List.compareLex Value.order coerced otherCoerced) := by
  have number : (Bytes.ofUInt64 index.id).Ranks (Bytes.ofUInt64 index.id) .eq := rfl
  exact number.append (coerces.ranks_flatMap otherCoerces)

/-- Row keys are equal just if the values are, apart from the signs of zeros. -/
theorem keyOf_eq_iff (coerces : index.Coerces values coerced)
    (otherCoerces : index.Coerces otherValues otherCoerced) :
    index.keyOf coerced = index.keyOf otherCoerced ↔
      coerced.map Value.dropZeroSign = otherCoerced.map Value.dropZeroSign := by
  rw [(ranks_keyOf coerces otherCoerces).eq_iff, coerces.compareLex_eq_iff otherCoerces]

/-! ### What row keys say -/

/-- What a row key of an index says of it, next to a second one and to one of another index. Byte
strings in memory are shorter than a machine word counts. -/
structure KeyIdentifies (index : IndexDescriptor) (coerced secondCoerced : List Value)
    (other : IndexDescriptor) (key secondKey otherKey : Bytes) : Prop where
  decodes : key.length < Word.count 64 →
    index.decodeValues key = .ok (coerced.map Value.dropZeroSign)
  numbered : indexIdOfKey key = .ok index.id
  same_iff : key = secondKey ↔
    coerced.map Value.dropZeroSign = secondCoerced.map Value.dropZeroSign
  not_longer : key <+: secondKey → key = secondKey
  apart : other.id ≠ index.id → ¬ key <+: otherKey ∧ ¬ otherKey <+: key

/-- Composite indexes have row keys for all values that coerce to their field types. A row key
decodes to the coerced values, zeros without their signs, and to the index; two keys of one index
are the same for such lists only, and neither goes on where the other ends; a key of one index is no
front of a key of an index with another number. -/
theorem compositeKey_identifies {index other : IndexDescriptor}
    (composite : index.isComposite = true) (otherComposite : other.isComposite = true)
    {values coerced secondValues secondCoerced otherValues otherCoerced : List Value}
    (coerces : index.Coerces values coerced)
    (secondCoerces : index.Coerces secondValues secondCoerced)
    (otherCoerces : other.Coerces otherValues otherCoerced) :
    ∃ key secondKey otherKey, index.compositeKey values = .ok key ∧
      index.compositeKey secondValues = .ok secondKey ∧
      other.compositeKey otherValues = .ok otherKey ∧
      index.KeyIdentifies coerced secondCoerced other key secondKey otherKey := by
  refine ⟨index.keyOf coerced, index.keyOf secondCoerced, other.keyOf otherCoerced,
    compositeKey_eq_ok.2 ⟨composite, coerced, coerces, rfl⟩,
    compositeKey_eq_ok.2 ⟨composite, secondCoerced, secondCoerces, rfl⟩,
    compositeKey_eq_ok.2 ⟨otherComposite, otherCoerced, otherCoerces, rfl⟩, ?_⟩
  exact {
    decodes := decodeValues_keyOf coerces
    numbered := indexIdOfKey_keyOf index coerced
    same_iff := keyOf_eq_iff coerces secondCoerces
    not_longer := (ranks_keyOf coerces secondCoerces).eq_of_isPrefix
    apart := fun differ => ⟨fun front => differ (id_eq_of_isPrefix front).symm,
      fun front => differ (id_eq_of_isPrefix front)⟩ }

/-- An index over a text, a double and a byte string. -/
def byReading : IndexDescriptor :=
  .composite "byReading" 43
    [⟨"sensor", .new .string .single⟩, ⟨"reading", .new .double .single⟩,
      ⟨"trace", .new .bytes .single⟩]

def byNameAge : IndexDescriptor :=
  .composite "byNameAge" 42 [⟨"name", .new .string .single⟩, ⟨"age", .new .integer .single⟩]

/-- A signed zero leads to the key of the integer zero and is read back without its sign. The key
begins with a number of its own. -/
theorem compositeKey_identifies_signedZero : ∃ key otherKey,
    byReading.compositeKey [.text "a", .double .negativeZero, .bytes [0, 255]] = .ok key ∧
    byReading.compositeKey [.text "a", .int 0, .bytes [0, 255]] = .ok key ∧
    byReading.decodeValues key = .ok [.text "a", .double .zero, .bytes [0, 255]] ∧
    indexIdOfKey key = .ok 43 ∧
    byNameAge.compositeKey [.text "a", .long 30] = .ok otherKey ∧
    ¬ key <+: otherKey ∧ ¬ otherKey <+: key := by
  have coerces : byReading.Coerces [.text "a", .double .negativeZero, .bytes [0, 255]]
      [.text "a", .double .negativeZero, .bytes [0, 255]] :=
    .cons rfl (.cons rfl (.cons rfl .nil))
  have zeroCoerces : byReading.Coerces [.text "a", .int 0, .bytes [0, 255]]
      [.text "a", .double .zero, .bytes [0, 255]] :=
    .cons rfl (.cons rfl (.cons rfl .nil))
  have otherCoerces : byNameAge.Coerces [.text "a", .long 30] [.text "a", .int 30] :=
    .cons rfl (.cons rfl .nil)
  obtain ⟨key, secondKey, otherKey, keyed, secondKeyed, otherKeyed, identifies⟩ :=
    compositeKey_identifies (rfl : byReading.isComposite = true)
      (rfl : byNameAge.isComposite = true) coerces zeroCoerces otherCoerces
  obtain rfl : key = secondKey := identifies.same_iff.2 rfl
  have short : key.length < Word.count 64 := by
    obtain rfl := Except.ok.inj keyed
    decide +kernel
  exact ⟨key, otherKey, keyed, secondKeyed, identifies.decodes short, identifies.numbered,
    otherKeyed, identifies.apart (by decide)⟩

/-! ### How row keys sort -/

/-- Row keys of a composite index sort as the coerced values, field by field. -/
theorem compositeKey_sorts {index : IndexDescriptor} (composite : index.isComposite = true)
    {values coerced otherValues otherCoerced : List Value} (coerces : index.Coerces values coerced)
    (otherCoerces : index.Coerces otherValues otherCoerced) :
    ∃ key otherKey, index.compositeKey values = .ok key ∧
      index.compositeKey otherValues = .ok otherKey ∧
      Slice.compareBytes key otherKey = List.compareLex Value.order coerced otherCoerced :=
  ⟨index.keyOf coerced, index.keyOf otherCoerced,
    compositeKey_eq_ok.2 ⟨composite, coerced, coerces, rfl⟩,
    compositeKey_eq_ok.2 ⟨composite, otherCoerced, otherCoerces, rfl⟩,
    (ranks_keyOf coerces otherCoerces).compareBytes_eq⟩

/-- The least positive double sorts behind a signed zero, whatever the next field holds. -/
theorem compositeKey_sorts_leastPositive : ∃ key otherKey,
    byReading.compositeKey [.text "a", .double ⟨1⟩, .bytes []] = .ok key ∧
    byReading.compositeKey [.text "a", .double .negativeZero, .bytes [255]] = .ok otherKey ∧
    otherKey < key := by
  have coerces : byReading.Coerces [.text "a", .double ⟨1⟩, .bytes []]
      [.text "a", .double ⟨1⟩, .bytes []] :=
    .cons rfl (.cons rfl (.cons rfl .nil))
  have otherCoerces : byReading.Coerces [.text "a", .double .negativeZero, .bytes [255]]
      [.text "a", .double .negativeZero, .bytes [255]] :=
    .cons rfl (.cons rfl (.cons rfl .nil))
  obtain ⟨key, otherKey, keyed, otherKeyed, sorted⟩ :=
    compositeKey_sorts (rfl : byReading.isComposite = true) coerces otherCoerces
  have doubles : (Value.double ⟨1⟩).order (.double .negativeZero) = .gt := by
    rw [Value.order, Double.cmp_value rfl rfl]
    decide +kernel
  have texts : (Value.text "a").order (.text "a") = .eq := by
    rw [Value.order, Slice.compareBytes_eq_eq]
  rw [List.compareLex_cons_cons, List.compareLex_cons_cons, texts, doubles] at sorted
  exact ⟨key, otherKey, keyed, otherKeyed, Slice.compareBytes_eq_gt.1 sorted⟩

end IndexDescriptor

end GraphStore
