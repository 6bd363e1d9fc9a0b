import GraphStore.Proofs.Encoding.Accepting
import GraphStore.Proofs.Index.Keys

/-!
Contract: stored forms that are written back as they were read.

Owns the spelling of every value, with those that no encoder writes (`Value.spelling`), and which
values are written as they are spelled (`Value.canonical_iff`). Decoders of values, of tagged values
and of row keys accept spellings only, one for each value, so that what they answer is written back
to the same bytes exactly if it holds no NaN and no signed zero (`written_back_iff`).
-/

namespace GraphStore

open Encoding

namespace Value

/-- The bytes that are read as the value. NaNs and signed zeros have such bytes too. -/
def spelling : Value → Bytes
  | double number => doubleBitsKey number
  | value => value.fieldBytes

/-- The value is neither NaN nor a zero with a sign. -/
def Canonical : Value → Prop
  | double number => number.isNaN = false ∧ number ≠ .negativeZero
  | _ => True

theorem verify_double {number : Double} :
    (double number).verify = .ok () ↔ number.isNaN = false := by
  refine ⟨isNaN_of_verified, fun isNumber => ?_⟩
  rw [verify, isNumber, if_neg Bool.false_ne_true]

/-- Canonical values are those that are written, and as they are spelled. -/
theorem canonical_iff {value : Value} :
    value.Canonical ↔ value.verify = .ok () ∧ value.fieldBytes = value.spelling := by
  cases value with
  | double number =>
      rw [verify_double, Canonical]
      refine and_congr_right fun isNumber => ?_
      rw [fieldBytes_double isNumber, spelling, doubleBitsKey_inj, Double.dropZeroSign]
      by_cases isZero : number = .negativeZero
      · rw [if_pos isZero, isZero]
        decide
      · simp [isZero]
  | _ => exact ⟨fun _ => ⟨rfl, rfl⟩, fun _ => trivial⟩

theorem length_spelling {value : Value} (verified : value.verify = .ok ()) :
    value.fieldBytes.length = value.spelling.length := by
  cases value with
  | double number =>
      rw [fieldBytes_double (verify_double.1 verified), spelling, doubleBitsKey, doubleBitsKey,
        Bytes.length_bigEndian, Bytes.length_bigEndian]
  | _ => rfl

theorem encode_eq_ok {value : Value} {written : Bytes} :
    value.encode = .ok written ↔ value.verify = .ok () ∧ value.fieldBytes = written := by
  rw [encode, Result.bind_eq_ok]
  constructor
  · rintro ⟨⟨⟩, verified, same⟩
    exact ⟨verified, Except.ok.inj same⟩
  · rintro ⟨verified, rfl⟩
    exact ⟨(), verified, rfl⟩

end Value

/-! ### Reading one value -/

namespace DataType

theorem spells_readBool : readBool.Spells fun flag => [if flag then 1 else 0] := by
  intro cursor flag after ran
  obtain ⟨byte, middle, took, answered⟩ := Action.bind_eq_ok.1 ran
  rw [spells_uint8 _ _ _ took]
  by_cases isZero : byte = 0
  · rw [if_pos isZero] at answered
    obtain ⟨rfl, rfl⟩ := Action.pure_eq_ok.1 answered
    rw [isZero]
    rfl
  · rw [if_neg isZero] at answered
    by_cases isOne : byte = 1
    · rw [if_pos isOne] at answered
      obtain ⟨rfl, rfl⟩ := Action.pure_eq_ok.1 answered
      rw [isOne]
      rfl
    · rw [if_neg isOne] at answered
      exact nomatch (Prod.mk.inj answered).1

theorem spells_readText : readText.Spells fun text => escaped (Bytes.ofString text) := by
  intro cursor text after ran
  obtain ⟨content, middle, took, answered⟩ := Action.bind_eq_ok.1 ran
  rw [spells_escaped _ _ _ took]
  cases isText : content.toString? with
  | none =>
      rw [isText] at answered
      exact nomatch (Prod.mk.inj answered).1
  | some found =>
      rw [isText] at answered
      obtain ⟨rfl, rfl⟩ := Action.pure_eq_ok.1 answered
      rw [← Bytes.ofString_of_toString? isText]

/-- A reader of the type passes the spelling of a value of the type. -/
theorem spells_read (dataType : DataType) : dataType.read.Spells Value.spelling := by
  cases dataType with
  | boolean => exact spells_readBool.mapped fun _ => rfl
  | integer => exact spells_int32.mapped fun _ => rfl
  | long => exact spells_int64.mapped fun _ => rfl
  | double => exact spells_double.mapped fun _ => rfl
  | string => exact spells_readText.mapped fun _ => rfl
  | bytes => exact spells_escaped.mapped fun _ => rfl

theorem dataType_of_read {dataType : DataType} {value : Value} {cursor after : Cursor}
    (ran : dataType.read cursor = (.ok value, after)) : value.dataType = dataType := by
  cases dataType <;>
  · obtain ⟨content, -, rfl⟩ := Action.map_eq_ok.1 ran
    rfl

theorem ofTag?_eq_some {tag : UInt8} {dataType : DataType} (known : ofTag? tag = some dataType) :
    tag = dataType.tag := by
  unfold ofTag? at known
  split at known
  case h_7 => exact nomatch known
  all_goals
    rename_i number
    obtain rfl := Option.some.inj known
    exact UInt8.toNat_inj.1 number

theorem spells_readTag : readTag.Spells fun dataType => [dataType.tag] := by
  intro cursor dataType after ran
  obtain ⟨tag, middle, took, answered⟩ := Action.bind_eq_ok.1 ran
  rw [spells_uint8 _ _ _ took]
  cases known : ofTag? tag with
  | none =>
      rw [known] at answered
      exact nomatch (Prod.mk.inj answered).1
  | some found =>
      rw [known] at answered
      obtain ⟨rfl, rfl⟩ := Action.pure_eq_ok.1 answered
      rw [ofTag?_eq_some known]

/-- A whole byte string that is read as a value of the type is its spelling. -/
theorem decode_eq_ok {dataType : DataType} {source : Bytes} {value : Value}
    (decoded : dataType.decode source = .ok value) :
    value.dataType = dataType ∧ source = value.spelling := by
  obtain ⟨after, ran⟩ := answer_eq_ok.1 decoded
  obtain ⟨found, middle, first, ran⟩ := Action.bind_eq_ok.1 ran
  obtain ⟨⟨⟩, last, finished, answered⟩ := Action.bind_eq_ok.1 ran
  obtain ⟨rfl, rfl⟩ := Action.pure_eq_ok.1 answered
  refine ⟨dataType_of_read first, ?_⟩
  have front := spells_read dataType _ _ _ first
  rwa [finish_eq_ok finished, List.append_nil] at front

end DataType

namespace Value

theorem decodeTagged_eq_ok {source : Bytes} {value : Value}
    (decoded : decodeTagged source = .ok value) :
    source = value.dataType.tag :: value.spelling := by
  obtain ⟨after, ran⟩ := answer_eq_ok.1 decoded
  obtain ⟨dataType, behind, tagged, ran⟩ := Action.bind_eq_ok.1 ran
  obtain ⟨found, middle, first, ran⟩ := Action.bind_eq_ok.1 ran
  obtain ⟨⟨⟩, last, finished, answered⟩ := Action.bind_eq_ok.1 ran
  obtain ⟨rfl, rfl⟩ := Action.pure_eq_ok.1 answered
  have front := DataType.spells_readTag _ _ _ tagged
  rw [DataType.spells_read dataType _ _ _ first, finish_eq_ok finished, List.append_nil] at front
  rw [DataType.dataType_of_read first]
  exact front

/-! ### Writing back -/

/-- A value of the type is coerced to itself. -/
theorem convert?_self (value : Value) : value.dataType.convert? value = some value := by
  cases value <;> rfl

/-- A value coerces to its own type just if it is fit, and stays as it is. -/
theorem coerce_self_iff {value coerced : Value} :
    value.dataType.coerce value = .ok coerced ↔ coerced = value ∧ value.verify = .ok () := by
  rw [DataType.coerce_eq_ok, DataType.convert_eq_ok, convert?_self, Option.some.injEq]
  constructor
  · rintro ⟨rfl, verified⟩
    exact ⟨rfl, verified⟩
  · rintro ⟨rfl, verified⟩
    exact ⟨rfl, verified⟩

theorem encodeTagged_eq_ok {value : Value} {written : Bytes} :
    value.encodeTagged = .ok written ↔
      value.verify = .ok () ∧ value.dataType.tag :: value.fieldBytes = written := by
  rw [encodeTagged, Result.bind_eq_ok]
  constructor
  · rintro ⟨content, wrote, same⟩
    obtain ⟨coerced, coerces, rfl⟩ := DataType.write_eq_ok.1 wrote
    obtain ⟨rfl, verified⟩ := coerce_self_iff.1 coerces
    exact ⟨verified, Except.ok.inj same⟩
  · rintro ⟨verified, rfl⟩
    exact ⟨_, DataType.write_eq_ok.2 ⟨value, coerce_self_iff.2 ⟨rfl, verified⟩, rfl⟩, rfl⟩

end Value

namespace IndexDescriptor

variable {index : IndexDescriptor} {values coerced : List Value}

theorem spells_readValues (dataTypes : List DataType) :
    (readValues dataTypes).Spells fun values => values.flatMap Value.spelling := by
  induction dataTypes with
  | nil =>
      intro cursor values after ran
      obtain ⟨rfl, rfl⟩ := Action.pure_eq_ok.1 ran
      rfl
  | cons dataType dataTypes inductionHypothesis =>
      intro cursor values after ran
      obtain ⟨first, middle, head, ran⟩ := Action.bind_eq_ok.1 ran
      obtain ⟨others, last, tail, answered⟩ := Action.bind_eq_ok.1 ran
      obtain ⟨rfl, rfl⟩ := Action.pure_eq_ok.1 answered
      rw [dataType.spells_read _ _ _ head, inductionHypothesis _ _ _ tail, ← List.append_assoc]
      rfl

theorem dataTypes_of_readValues {dataTypes : List DataType} {cursor after : Cursor}
    (ran : readValues dataTypes cursor = (.ok values, after)) :
    values.map Value.dataType = dataTypes := by
  induction dataTypes generalizing cursor values with
  | nil =>
      obtain ⟨rfl, rfl⟩ := Action.pure_eq_ok.1 ran
      rfl
  | cons dataType dataTypes inductionHypothesis =>
      obtain ⟨first, middle, head, ran⟩ := Action.bind_eq_ok.1 ran
      obtain ⟨others, last, tail, answered⟩ := Action.bind_eq_ok.1 ran
      obtain ⟨rfl, rfl⟩ := Action.pure_eq_ok.1 answered
      rw [List.map_cons, DataType.dataType_of_read head, inductionHypothesis tail]

/-- A row key of the index is its number in front of the spellings of the values. -/
theorem decodeValues_eq_ok {key : Bytes} (decoded : index.decodeValues key = .ok values) :
    values.map Value.dataType = index.fieldTypes ∧
      key = Bytes.ofUInt64 index.id ++ values.flatMap Value.spelling := by
  obtain ⟨after, ran⟩ := answer_eq_ok.1 decoded
  obtain ⟨id, behind, numbered, ran⟩ := Action.bind_eq_ok.1 ran
  by_cases own : id = index.id
  · rw [if_neg (not_not_intro own)] at ran
    obtain ⟨found, middle, read, ran⟩ := Action.bind_eq_ok.1 ran
    obtain ⟨⟨⟩, last, finished, answered⟩ := Action.bind_eq_ok.1 ran
    obtain ⟨rfl, rfl⟩ := Action.pure_eq_ok.1 answered
    refine ⟨dataTypes_of_readValues read, ?_⟩
    have front := spells_uint64 _ _ _ numbered
    rwa [spells_readValues _ _ _ _ read, finish_eq_ok finished, List.append_nil, own] at front
  · rw [if_pos own] at ran
    exact nomatch (Prod.mk.inj ran).1

theorem coerceAll_self_iff :
    CoerceAll (values.map Value.dataType) values coerced ↔
      coerced = values ∧ ∀ value ∈ values, value.verify = .ok () := by
  induction values generalizing coerced with
  | nil =>
      constructor
      · rintro ⟨⟩
        exact ⟨rfl, nofun⟩
      · rintro ⟨rfl, -⟩
        exact .nil
  | cons value values inductionHypothesis =>
      rw [List.forall_mem_cons]
      constructor
      · rintro (_ | ⟨head, tail⟩)
        obtain ⟨rfl, verified⟩ := Value.coerce_self_iff.1 head
        obtain ⟨rfl, others⟩ := inductionHypothesis.1 tail
        exact ⟨rfl, verified, others⟩
      · rintro ⟨rfl, verified, others⟩
        exact .cons (Value.coerce_self_iff.2 ⟨rfl, verified⟩) (inductionHypothesis.2 ⟨rfl, others⟩)

/-- Spellings in sequence are what is written only if each of them is. -/
theorem flatMap_fieldBytes_eq_iff (verified : ∀ value ∈ values, value.verify = .ok ()) :
    values.flatMap Value.fieldBytes = values.flatMap Value.spelling ↔
      ∀ value ∈ values, value.fieldBytes = value.spelling := by
  induction values with
  | nil => simp
  | cons value values inductionHypothesis =>
      obtain ⟨first, others⟩ := List.forall_mem_cons.1 verified
      rw [List.flatMap_cons, List.flatMap_cons, List.forall_mem_cons, ← inductionHypothesis others]
      constructor
      · exact fun same => List.append_inj same (Value.length_spelling first)
      · rintro ⟨same, rest⟩
        rw [same, rest]

/-- Values of the field types are written as they are spelled exactly if they are canonical. -/
theorem compositeKey_eq_spelling_iff (composite : index.isComposite = true)
    (typed : values.map Value.dataType = index.fieldTypes) :
    index.compositeKey values = .ok (Bytes.ofUInt64 index.id ++ values.flatMap Value.spelling) ↔
      ∀ value ∈ values, value.Canonical := by
  rw [compositeKey_eq_ok]
  constructor
  · rintro ⟨-, coerced, coerces, same⟩
    rw [Coerces, ← typed, coerceAll_self_iff] at coerces
    obtain ⟨rfl, verified⟩ := coerces
    have fields := (flatMap_fieldBytes_eq_iff verified).1 (List.append_cancel_left same).symm
    exact fun value listed => Value.canonical_iff.2 ⟨verified value listed, fields value listed⟩
  · intro canonical
    have verified : ∀ value ∈ values, value.verify = .ok () := fun value listed =>
      (Value.canonical_iff.1 (canonical value listed)).1
    have fields := (flatMap_fieldBytes_eq_iff verified).2 fun value listed =>
      (Value.canonical_iff.1 (canonical value listed)).2
    refine ⟨composite, values, ?_, congrArg _ fields.symm⟩
    rw [Coerces, ← typed, coerceAll_self_iff]
    exact ⟨rfl, verified⟩

end IndexDescriptor

/-- What a decoder of values, of tagged values or of row keys accepts is written back to the same
bytes exactly if it holds no NaN and no zero with a sign. -/
theorem written_back_iff (dataType : DataType) {index : IndexDescriptor}
    (composite : index.isComposite = true) (source : Bytes) :
    (∀ value, dataType.decode source = .ok value →
      (value.verify = .ok () ∧ value.encode = .ok source ↔ value.Canonical)) ∧
    (∀ value, Value.decodeTagged source = .ok value →
      (value.encodeTagged = .ok source ↔ value.Canonical)) ∧
    ∀ values, index.decodeValues source = .ok values →
      (index.compositeKey values = .ok source ↔ ∀ value ∈ values, value.Canonical) := by
  refine ⟨fun value decoded => ?_, fun value decoded => ?_, fun values decoded => ?_⟩
  · obtain ⟨-, rfl⟩ := DataType.decode_eq_ok decoded
    rw [Value.encode_eq_ok, ← Value.canonical_iff]
    exact ⟨And.right, fun canonical => ⟨(Value.canonical_iff.1 canonical).1, canonical⟩⟩
  · obtain rfl := Value.decodeTagged_eq_ok decoded
    rw [Value.encodeTagged_eq_ok, Value.canonical_iff, List.cons.injEq]
    simp
  · obtain ⟨typed, rfl⟩ := IndexDescriptor.decodeValues_eq_ok decoded
    exact IndexDescriptor.compositeKey_eq_spelling_iff composite typed

/-- The least positive double, tagged or not, and a row key with a zero in it. -/
theorem written_back_iff_leastPositive :
    (Value.double ⟨1⟩).encode = .ok [128, 0, 0, 0, 0, 0, 0, 1] ∧
    (Value.double ⟨1⟩).encodeTagged = .ok [4, 128, 0, 0, 0, 0, 0, 0, 1] ∧
    IndexDescriptor.byReading.compositeKey [.text "a", .double .zero, .bytes [0]] =
      .ok [0, 0, 0, 0, 0, 0, 0, 43, 97, 0, 1, 128, 0, 0, 0, 0, 0, 0, 0, 0, 255, 0, 1] := by
  have composite : IndexDescriptor.byReading.isComposite = true := rfl
  have canonical : (Value.double ⟨1⟩).Canonical := ⟨rfl, by decide⟩
  have zeroCanonical : (Value.double .zero).Canonical := ⟨rfl, by decide⟩
  refine ⟨?_, ?_, ?_⟩
  · obtain ⟨values, -, -⟩ := written_back_iff .double composite [128, 0, 0, 0, 0, 0, 0, 1]
    exact ((values (.double ⟨1⟩) rfl).2 canonical).2
  · obtain ⟨-, tagged, -⟩ := written_back_iff .double composite [4, 128, 0, 0, 0, 0, 0, 0, 1]
    exact (tagged (.double ⟨1⟩) rfl).2 canonical
  · obtain ⟨-, -, keys⟩ := written_back_iff .double composite
      [0, 0, 0, 0, 0, 0, 0, 43, 97, 0, 1, 128, 0, 0, 0, 0, 0, 0, 0, 0, 255, 0, 1]
    refine (keys [.text "a", .double .zero, .bytes [0]] rfl).2 ?_
    simp only [List.forall_mem_cons]
    exact ⟨trivial, zeroCanonical, trivial, nofun⟩

/-- A NaN and a signed zero are read, but the one is not written, and the other as zero. -/
theorem decode_accepts_unwritten :
    DataType.double.decode (Bytes.ones 8) = .ok (.double ⟨0x7fffffffffffffff⟩) ∧
    (Value.double ⟨0x7fffffffffffffff⟩).verify = .error (.invalidValue .nanAttribute) ∧
    DataType.double.decode [127, 255, 255, 255, 255, 255, 255, 255] =
      .ok (.double .negativeZero) ∧
    (Value.double .negativeZero).encode = .ok [128, 0, 0, 0, 0, 0, 0, 0] ∧
    Value.decodeTagged [4, 127, 255, 255, 255, 255, 255, 255, 255] =
      .ok (.double .negativeZero) ∧
    (Value.double .negativeZero).encodeTagged = .ok [4, 128, 0, 0, 0, 0, 0, 0, 0] := by
  decide +kernel

end GraphStore
