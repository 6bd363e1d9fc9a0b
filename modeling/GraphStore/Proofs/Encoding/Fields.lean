import GraphStore.Encoding.Field
import GraphStore.Proofs.Encoding.Numbers

/-!
Contract: sequences of fields, whole and cut off.

Owns that every kind of field marks its own end: its reading step takes the bytes of a field in
front of anything else (`Field.takes`) and finds damage in any shorter front of them
(`Field.breaks`). What has been written field by field is therefore read field by field
(`readFields_whole`), and a source that is cut off is read up to the field that the cut goes through
(`readFields_cut`).
-/

namespace GraphStore.Encoding

/-! ### Whole fields -/

theorem takes_uint32 (value : UInt32) : Read.uint32.Takes (Bytes.ofUInt32 value) value := by
  have taken :=
    (takes_width (Bytes.ofUInt32 value) (Bytes.length_ofUInt32 value) Bytes.toNat).map UInt32.ofNat
  rwa [Bytes.toNat_ofUInt32, UInt32.ofNat_toNat] at taken

/-- The reading step of a field takes its bytes. -/
theorem Field.takes (field : Field) : field.kind.read.Takes field.encode field := by
  cases field with
  | uint8 value => exact (takes_uint8 value).mapped uint8
  | uint32 value => exact (takes_uint32 value).mapped uint32
  | uint64 value => exact (takes_uint64 value).mapped uint64
  | int32 value => exact (takes_int32 value).mapped int32
  | int64 value => exact (takes_int64 value).mapped int64
  | double value => exact (takes_double value).mapped double
  | varint value =>
      have taken := takes_varint value.toNat_lt
      rw [UInt64.ofNat_toNat] at taken
      exact taken.mapped varint
  | escaped content => exact (takes_escaped content).mapped escaped
  | raw content => exact (takes_take content).mapped raw

/-! ### Fields that are cut off -/

/-- Where only a part of `written` is left, the step reports damage. -/
def Read.Breaks {α : Type} (step : Read α) (written : Bytes) : Prop :=
  ∀ offset cut, cut < written.length →
    ∃ damage after, step ⟨offset, written.take cut⟩ = (.error (.corruption damage), after)

namespace Read.Breaks

variable {α β : Type}

/-- A step that breaks in front breaks whatever is to come. -/
theorem bind {first : Read α} {written : Bytes} (breaks : first.Breaks written)
    (next : α → Read β) : Breaks (first >>= next) written := by
  intro offset cut inside
  obtain ⟨damage, after, failed⟩ := breaks offset cut inside
  exact ⟨damage, after, Action.bind_of_error failed⟩

theorem mapped {first : Read α} {written : Bytes} (breaks : first.Breaks written)
    (change : α → β) : Breaks (change <$> first) written := by
  rw [← bind_pure_comp]
  exact breaks.bind _

end Read.Breaks

/-- A content of fixed width breaks where a byte of it is missing. -/
theorem breaks_take {width : Nat} {content : Bytes} (length : content.length = width) :
    (Read.take width).Breaks content := by
  intro offset cut inside
  have short : (content.take cut).length < width := by
    rw [List.length_take]
    omega
  rw [Read.take]
  by_cases overflow : offsetLimit ≤ offset + width
  · rw [if_pos overflow]
    exact ⟨_, _, rfl⟩
  · rw [if_neg overflow, Cursor.remaining, if_pos short]
    exact ⟨_, _, rfl⟩

/-- All bytes of a number but the last announce another one. -/
theorem readVarintFrom_cut (left index value : Nat) {cut : Nat}
    (inside : cut < (varint value).length) :
    ∃ damage behind,
      readVarintFrom left index ((varint value).take cut) = (.error damage, behind) := by
  induction left generalizing index value cut with
  | zero => exact ⟨_, _, rfl⟩
  | succ left inductionHypothesis =>
      cases cut with
      | zero => exact ⟨_, _, rfl⟩
      | succ cut =>
          rw [varint] at inside ⊢
          by_cases small : value < 128
          · rw [if_pos small] at inside
            exact absurd inside (Nat.not_lt.2 (Nat.succ_le_succ (Nat.zero_le cut)))
          · rw [if_neg small, List.length_cons] at inside
            have byte : (UInt8.ofNat (value % 128 + 128)).toNat = value % 128 + 128 := by
              rw [UInt8.toNat_ofNat']
              omega
            obtain ⟨damage, behind, failed⟩ :=
              inductionHypothesis (index + 1) (value / 128) (Nat.lt_of_succ_lt_succ inside)
            rw [if_neg small, List.take_succ_cons, readVarintFrom]
            simp only [byte, failed]
            rw [if_neg (by omega : ¬ value % 128 + 128 < 128)]
            split
            · exact ⟨_, _, rfl⟩
            · exact ⟨_, _, rfl⟩

/-- A number of variable length breaks where a byte of it is missing. -/
theorem breaks_varint (value : Nat) : Read.varint.Breaks (varint value) := by
  intro offset cut inside
  obtain ⟨damage, behind, failed⟩ := readVarintFrom_cut maxVarintBytes 0 value inside
  refine ⟨damage, Cursor.advanceTo ⟨offset, (varint value).take cut⟩ behind, ?_⟩
  rw [Read.varint, readVarint, failed]

/-- An escaped string ends with its mark and nowhere before. -/
theorem readEscapedFrom_cut (content : Bytes) (offset : Nat) {cut : Nat}
    (inside : cut < (escaped content).length) :
    readEscapedFrom offset ((escaped content).take cut) = .error .unterminated := by
  induction content generalizing offset cut with
  | nil =>
      rcases cut with _ | _ | cut
      · rfl
      · rfl
      · exact absurd inside (Nat.not_lt.2 (Nat.le_add_left 2 cut))
  | cons byte content inductionHypothesis =>
      by_cases isZero : byte = 0
      · subst isZero
        rw [escaped_zero] at inside ⊢
        rcases cut with _ | _ | cut
        · rfl
        · rfl
        · rw [List.take_succ_cons, List.take_succ_cons, readEscapedFrom, if_pos rfl, if_pos rfl,
            inductionHypothesis (offset + 2)
              (Nat.lt_of_succ_lt_succ (Nat.lt_of_succ_lt_succ inside))]
          rfl
      · rw [escaped_cons isZero] at inside ⊢
        cases cut with
        | zero => rfl
        | succ cut =>
            rw [List.take_succ_cons, readEscapedFrom.eq_def]
            dsimp only
            rw [if_neg isZero, inductionHypothesis (offset + 1) (Nat.lt_of_succ_lt_succ inside)]
            rfl

theorem breaks_escaped (content : Bytes) : Read.escaped.Breaks (escaped content) := by
  intro offset cut inside
  refine ⟨.unterminated, ⟨offset, (escaped content).take cut⟩, ?_⟩
  rw [Read.escaped, readEscapedFrom_cut content 0 inside]

/-- The reading step of a field reports damage where the field is cut off. -/
theorem Field.breaks (field : Field) : field.kind.read.Breaks field.encode := by
  cases field with
  | uint8 value => exact (((breaks_take rfl).bind _).bind _).mapped uint8
  | uint32 value => exact (((breaks_take (Bytes.length_bigEndian 4 _)).bind _).bind _).mapped uint32
  | uint64 value => exact (((breaks_take (Bytes.length_bigEndian 8 _)).bind _).bind _).mapped uint64
  | int32 value => exact ((breaks_take (Bytes.length_bigEndian 4 _)).bind _).mapped int32
  | int64 value => exact ((breaks_take (Bytes.length_bigEndian 8 _)).bind _).mapped int64
  | double value => exact ((breaks_take (Bytes.length_bigEndian 8 _)).bind _).mapped double
  | varint value => exact (breaks_varint value.toNat).mapped varint
  | escaped content => exact (breaks_escaped content).mapped escaped
  | raw content => exact (breaks_take rfl).mapped raw

/-! ### Sequences -/

namespace Field

theorem encodeAll_cons (field : Field) (fields : List Field) :
    encodeAll (field :: fields) = field.encode ++ encodeAll fields := rfl

theorem encodeAll_singleton (field : Field) : encodeAll [field] = field.encode := by
  rw [encodeAll_cons, encodeAll, List.flatMap_nil, List.append_nil]

theorem encodeAll_append (front back : List Field) :
    encodeAll (front ++ back) = encodeAll front ++ encodeAll back :=
  List.flatMap_append

/-- The fields that stand from `start` on in a source, each with the cursor behind all that has been
written up to its end. -/
def passedFrom (source : Bytes) (start : Nat) (fields : List Field) : List (Field × Cursor) :=
  fields.mapIdx fun place field =>
    (field, Cursor.startAt source (start + (encodeAll (fields.take (place + 1))).length))

/-- The fields at the front of a source with the cursors behind them. -/
def passed (source : Bytes) (fields : List Field) : List (Field × Cursor) :=
  passedFrom source 0 fields

theorem passedFrom_cons (source : Bytes) (start : Nat) (field : Field) (fields : List Field) :
    passedFrom source start (field :: fields) =
      (field, Cursor.startAt source (start + field.encode.length)) ::
        passedFrom source (start + field.encode.length) fields := by
  unfold passedFrom
  rw [List.mapIdx_cons]
  congr 1
  · rw [List.take_succ_cons, List.take_zero, encodeAll_singleton]
  · congr 1
    funext place found
    rw [List.take_succ_cons, encodeAll_cons, List.length_append, Nat.add_assoc]

/-- A cut goes through the first field that does not end at or before it. -/
theorem exists_torn {fields : List Field} {cut : Nat} (inside : cut < (encodeAll fields).length) :
    ∃ whole field later, fields = whole ++ field :: later ∧ (encodeAll whole).length ≤ cut ∧
      cut < (encodeAll (whole ++ [field])).length := by
  induction fields generalizing cut with
  | nil => exact absurd inside (Nat.not_lt_zero cut)
  | cons first fields inductionHypothesis =>
      rw [encodeAll_cons, List.length_append] at inside
      by_cases torn : cut < first.encode.length
      · refine ⟨[], first, fields, rfl, Nat.zero_le cut, ?_⟩
        rwa [List.nil_append, encodeAll_singleton]
      · obtain ⟨whole, field, later, rfl, reached, beyond⟩ :=
          inductionHypothesis (by omega : cut - first.encode.length < (encodeAll fields).length)
        refine ⟨first :: whole, field, later, rfl, ?_, ?_⟩
        · rw [encodeAll_cons, List.length_append]
          omega
        · rw [List.cons_append, encodeAll_cons, List.length_append]
          omega

end Field

theorem startAt_append (front behind : Bytes) :
    Cursor.startAt (front ++ behind) front.length = ⟨front.length, behind⟩ := by
  rw [Cursor.startAt, List.drop_left]

theorem Field.read_startAt (field : Field) {front : Bytes} (behind : Bytes)
    (within : (front ++ field.encode).length < offsetLimit) :
    field.kind.read (Cursor.startAt (front ++ field.encode ++ behind) front.length) =
      (.ok field,
        Cursor.startAt (front ++ field.encode ++ behind) (front ++ field.encode).length) := by
  rw [List.length_append] at within
  rw [startAt_append, List.append_assoc, startAt_append, field.takes front.length behind within,
    List.length_append]

/-- Fields are read one by one, with the cursor behind each, and reading goes on behind them. -/
theorem readFields_append (front : Bytes) {fields : List Field}
    (fits : (front ++ Field.encodeAll fields).length < offsetLimit) (kinds : List FieldKind)
    (behind : Bytes) :
    readFields (fields.map Field.kind ++ kinds)
        (Cursor.startAt (front ++ Field.encodeAll fields ++ behind) front.length) =
      let later := readFields kinds ⟨(front ++ Field.encodeAll fields).length, behind⟩
      (Field.passedFrom (front ++ Field.encodeAll fields ++ behind) front.length fields ++ later.1,
        later.2) := by
  induction fields generalizing front with
  | nil =>
      rw [Field.encodeAll, List.flatMap_nil, List.append_nil, startAt_append]
      rfl
  | cons field fields inductionHypothesis =>
      rw [Field.encodeAll_cons, ← List.append_assoc] at fits ⊢
      have within : (front ++ field.encode).length < offsetLimit := by
        rw [List.length_append] at fits
        omega
      have first := field.read_startAt (Field.encodeAll fields ++ behind) within
      have others := inductionHypothesis _ fits
      rw [← List.append_assoc] at first
      rw [Field.passedFrom_cons, ← List.length_append, List.map_cons, List.cons_append, readFields,
        first]
      simp only [others]
      rfl

/-- What has been written field by field is read field by field, whatever follows. -/
theorem readFields_whole {fields : List Field}
    (fits : (Field.encodeAll fields).length < offsetLimit) (behind : Bytes) :
    readFields (fields.map Field.kind) (Cursor.start (Field.encodeAll fields ++ behind)) =
      (Field.passed (Field.encodeAll fields ++ behind) fields, none) := by
  have read := readFields_append [] fits [] behind
  simp only [readFields, List.append_nil] at read
  exact read

/-- A source that is cut off is read up to the field that the cut goes through, and no further. -/
theorem readFields_cut {fields : List Field} (fits : (Field.encodeAll fields).length < offsetLimit)
    {cut : Nat} (inside : cut < (Field.encodeAll fields).length) :
    ∃ whole field later damage, fields = whole ++ field :: later ∧
      (Field.encodeAll whole).length ≤ cut ∧ cut < (Field.encodeAll (whole ++ [field])).length ∧
      readFields (fields.map Field.kind) (Cursor.start ((Field.encodeAll fields).take cut)) =
        (Field.passed ((Field.encodeAll fields).take cut) whole, some (.corruption damage)) := by
  obtain ⟨whole, field, later, rfl, reached, beyond⟩ := Field.exists_torn inside
  have cutField : cut - (Field.encodeAll whole).length < field.encode.length := by
    rw [Field.encodeAll_append, Field.encodeAll_singleton, List.length_append] at beyond
    omega
  rw [Field.encodeAll_append, Field.encodeAll_cons] at fits ⊢
  let torn := field.encode.take (cut - (Field.encodeAll whole).length)
  have source : (Field.encodeAll whole ++ (field.encode ++ Field.encodeAll later)).take cut =
      Field.encodeAll whole ++ torn := by
    rw [List.take_append, List.take_of_length_le reached,
      List.take_append_of_le_length (Nat.le_of_lt cutField)]
  obtain ⟨damage, after, failed⟩ := field.breaks (Field.encodeAll whole).length _ cutField
  have wholeFits : ([] ++ Field.encodeAll whole).length < offsetLimit := by
    rw [List.length_append] at fits
    rw [List.nil_append]
    omega
  have read := readFields_append [] wholeFits (field.kind :: later.map Field.kind) torn
  refine ⟨whole, field, later, damage, rfl, reached, beyond, ?_⟩
  rw [source, List.map_append, List.map_cons]
  simp only [readFields, List.nil_append, failed, torn, List.append_nil] at read
  exact read

end GraphStore.Encoding
