import GraphStore.Proofs.Encoding.Accepting
import GraphStore.Proofs.Encoding.Fields

/-!
Contract: reading by offsets into one source, as a machine does it.

A machine stops when it is asked for a byte or a part outside the source, when a sum outgrows its
word or when a word is shifted by its whole width. Owns the reading steps in that form, with `none`
for a program that has stopped, and the proof that from any offset within the source each of them
answers what the step over a cursor answers and ends within the source again (`Indexed.Follows`).
Sequences of readings, whatever has failed before, therefore never stop (`readEach_eq`).
-/

namespace GraphStore.Encoding

/-- A reading step from an offset in a source: the outcome and the offset afterwards, or nothing
where the program stops. -/
abbrev Indexed (α : Type) := (source : Bytes) → (offset : Nat) → Option (Result α × Nat)

namespace Indexed

variable {α β : Type}

/-! ### Steps -/

/-- The value, if a word of so many bits holds it. -/
def fits? (width value : Nat) : Option Nat :=
  if value < Word.count width then some value else none

/-- The part of a source between two offsets, if they lie within it in this order. -/
def part? (source : Bytes) (start stop : Nat) : Option Bytes :=
  if start ≤ stop ∧ stop ≤ source.length then some ((source.drop start).take (stop - start))
  else none

/-- A word moved to the left by less than its width. -/
def shiftLeft? (value : UInt64) (places : Nat) : Option UInt64 :=
  if places < 64 then some (value <<< UInt64.ofNat places) else none

def map (change : α → β) (step : Indexed α) : Indexed β := fun source offset =>
  (step source offset).map fun ran => (ran.1.map change, ran.2)

/-- The next `count` bytes. An end beyond the greatest offset is damage and no reason to stop. -/
def take (count : Nat) : Indexed Bytes := fun source offset =>
  match fits? 64 (offset + count) with
  | none => some (.error (.corruption .offsetOverflow), offset)
  | some stop =>
    if source.length < stop then
      some (.error (.corruption (.pastEnd count (source.length - offset))), offset)
    else (part? source offset stop).map fun content => (.ok content, stop)

/-- The next bytes, copied to a place that holds exactly `width` of them. -/
def takeArray (width : Nat) : Indexed Bytes := fun source offset => do
  let (outcome, after) ← take width source offset
  match outcome with
  | .ok content => if content.length = width then some (.ok content, after) else none
  | .error failure => some (.error failure, after)

/-- The number that goes on at an offset with its digit number `index`, which weighs `2 ^ shift`;
the digits before amount to `total`. -/
def varintFrom (source : Bytes) : (left index shift : Nat) → (total : UInt64) → (offset : Nat) →
    Option (Result UInt64 × Nat)
  | 0, _, _, _, offset => some (.error (.corruption .varintTooLong), offset)
  | left + 1, index, shift, total, offset =>
    match source[offset]? with
    | none => some (.error (.corruption (.varintTruncated index)), offset)
    | some byte => do
      let behind ← fits? 64 (offset + 1)
      let digit := (byte &&& 0x7F).toUInt64
      if index = 9 ∧ 1 < digit then some (.error (.corruption .varintTooLarge), behind)
      else
        let placed ← shiftLeft? digit shift
        if byte &&& 0x80 = 0 then some (.ok (total ||| placed), behind)
        else
          let nextShift ← fits? 32 (shift + 7)
          varintFrom source left (index + 1) nextShift (total ||| placed) behind

def varint : Indexed UInt64 := fun source offset =>
  varintFrom source maxVarintBytes 0 0 0 offset

/-- The escaped string of which `found` has been read up to `index`, and the index behind its end
mark. -/
def splitFrom (part : Bytes) (index : Nat) (found : Bytes) :
    Option (Except Damage (Bytes × Nat)) :=
  if index < part.length then do
    let byte ← part[index]?
    let next ← fits? 64 (index + 1)
    if byte ≠ 0 then splitFrom part (index + 1) (found ++ [byte])
    else
      match part[next]? with
      | none => some (.error .unterminated)
      | some mark =>
        if mark = 255 then do
          let _ ← fits? 64 (index + 2)
          splitFrom part (index + 2) (found ++ [0])
        else if mark = 1 then do
          let behind ← fits? 64 (index + 2)
          some (.ok (found, behind))
        else some (.error (.badEscape mark index))
  else some (.error .unterminated)
termination_by part.length - index

def escaped : Indexed Bytes := fun source offset => do
  let part ← part? source offset source.length
  match ← splitFrom part 0 [] with
  | .ok (content, consumed) => do
    let after ← fits? 64 (offset + consumed)
    some (.ok content, after)
  | .error damage => some (.error (.corruption damage), offset)

def read : FieldKind → Indexed Field
  | .uint8 => map Field.uint8 (map UInt8.ofNat (map Bytes.toNat (takeArray 1)))
  | .uint32 => map Field.uint32 (map UInt32.ofNat (map Bytes.toNat (takeArray 4)))
  | .uint64 => map Field.uint64 (map UInt64.ofNat (map Bytes.toNat (takeArray 8)))
  | .int32 => map Field.int32 (map int32OfKey (takeArray 4))
  | .int64 => map Field.int64 (map int64OfKey (takeArray 8))
  | .double => map Field.double (map doubleOfKey (takeArray 8))
  | .varint => map Field.varint varint
  | .escaped => map Field.escaped escaped
  | .raw length => map Field.raw (take length)

/-- Reads fields of the given kinds, each from where the one before it has ended or failed. -/
def readEach (source : Bytes) : List FieldKind → Nat → Option (List (Result Field × Nat))
  | [], _ => some []
  | kind :: kinds, offset => do
    let (outcome, after) ← read kind source offset
    let others ← readEach source kinds after
    some ((outcome, after) :: others)

/-! ### What cursors do -/

/-- From any offset within a source that memory holds the indexed step does not stop: its outcome is
that of the step over a cursor, and the offset afterwards is the cursor's and within the source. -/
def Follows (indexed : Indexed α) (step : Read α) : Prop :=
  ∀ source offset, source.length < offsetLimit → offset ≤ source.length →
    ∃ outcome after, indexed source offset = some (outcome, after) ∧ after ≤ source.length ∧
      step (Cursor.startAt source offset) = (outcome, Cursor.startAt source after)

namespace Follows

theorem map {indexed : Indexed α} {step : Read α} (follows : Follows indexed step)
    (change : α → β) :
    Follows (Indexed.map change indexed) (step >>= fun answer => pure (change answer)) := by
  intro source offset inMemory inside
  obtain ⟨outcome, after, ran, bound, same⟩ := follows source offset inMemory inside
  refine ⟨outcome.map change, after, ?_, bound, ?_⟩
  · rw [Indexed.map, ran]
    rfl
  · rw [Action.bind_pure_apply, same]

theorem mapped {indexed : Indexed α} {step : Read α} (follows : Follows indexed step)
    (change : α → β) : Follows (Indexed.map change indexed) (change <$> step) := by
  rw [← bind_pure_comp]
  exact follows.map change

end Follows

/-! ### Fixed widths -/

theorem fits?_of_lt {width value : Nat} (small : value < Word.count width) :
    fits? width value = some value := if_pos small

theorem fits?_of_le {width value : Nat} (large : Word.count width ≤ value) :
    fits? width value = none := if_neg (Nat.not_lt.2 large)

theorem part?_of_le {source : Bytes} {start stop : Nat} (ordered : start ≤ stop)
    (inside : stop ≤ source.length) :
    part? source start stop = some ((source.drop start).take (stop - start)) :=
  if_pos ⟨ordered, inside⟩

theorem take_startAt (source : Bytes) (offset count : Nat) :
    Read.take count (Cursor.startAt source offset) =
      if offsetLimit ≤ offset + count then
        (.error (.corruption .offsetOverflow), Cursor.startAt source offset)
      else if source.length - offset < count then
        (.error (.corruption (.pastEnd count (source.length - offset))),
          Cursor.startAt source offset)
      else (.ok ((source.drop offset).take count), Cursor.startAt source (offset + count)) := by
  have remaining : (Cursor.startAt source offset).remaining = source.length - offset :=
    List.length_drop
  rw [Read.take, remaining]
  simp only [Cursor.startAt, List.drop_drop]

theorem follows_take (count : Nat) : Follows (take count) (Read.take count) := by
  intro source offset _ inside
  rw [take_startAt, take]
  by_cases overflow : offsetLimit ≤ offset + count
  · rw [if_pos overflow, fits?_of_le overflow]
    exact ⟨_, offset, rfl, inside, rfl⟩
  · rw [if_neg overflow, fits?_of_lt (Nat.lt_of_not_le overflow)]
    by_cases short : source.length - offset < count
    · rw [if_pos short]
      refine ⟨_, offset, if_pos (by omega), inside, rfl⟩
    · rw [if_neg short]
      refine ⟨_, offset + count, ?_, by omega, rfl⟩
      dsimp only
      rw [if_neg (by omega), part?_of_le (by omega) (by omega), Nat.add_sub_cancel_left]
      rfl

/-- What has been taken fits the array: it is as long as asked for. -/
theorem follows_takeArray (width : Nat) : Follows (takeArray width) (Read.take width) := by
  intro source offset inMemory inside
  obtain ⟨outcome, after, ran, bound, same⟩ := follows_take width source offset inMemory inside
  refine ⟨outcome, after, ?_, bound, same⟩
  rw [takeArray, ran]
  cases outcome with
  | error failure => rfl
  | ok content => exact if_pos (take_eq_ok same).1

/-! ### Numbers of variable length -/

theorem toNat_digit (byte : UInt8) : (byte &&& 0x7F).toUInt64.toNat = byte.toNat % 128 := by
  rw [UInt8.toNat_toUInt64, UInt8.toNat_and]
  exact Nat.and_two_pow_sub_one_eq_mod byte.toNat 7

theorem isLast_iff (byte : UInt8) : byte &&& 0x80 = 0 ↔ byte.toNat < 128 := by
  have low : ∀ number : Fin 256, number.val &&& 128 = 0 ↔ number.val < 128 := by
    decide +kernel
  rw [← UInt8.toNat_inj, UInt8.toNat_and]
  exact low ⟨byte.toNat, byte.toNat_lt⟩

/-- A digit joins the lower ones without a carry. -/
theorem toNat_placed {total digit : UInt64} {index : Nat} (small : total.toNat < Nat.pow 128 index)
    (fits : digit.toNat * Nat.pow 128 index < Word.count 64) (places : 7 * index < 64) :
    (total ||| digit <<< UInt64.ofNat (7 * index)).toNat =
      total.toNat + digit.toNat * Nat.pow 128 index := by
  have weight : Nat.pow 128 index = 2 ^ (7 * index) := (Nat.pow_mul 2 7 index).symm
  have place : (UInt64.ofNat (7 * index)).toNat % 64 = 7 * index := by
    rw [UInt64.toNat_ofNat']
    omega
  rw [weight] at small fits ⊢
  change digit.toNat * 2 ^ (7 * index) < 2 ^ 64 at fits
  rw [UInt64.toNat_or, UInt64.toNat_shiftLeft, place, Nat.shiftLeft_eq, Nat.mod_eq_of_lt fits,
    Nat.or_comm, ← Nat.shiftLeft_eq, ← Nat.shiftLeft_add_eq_or_of_lt small, Nat.add_comm]

/-- Of ten digits the last one has a single bit, so that a word holds every digit in its place. -/
theorem digit_fits {index left digit : Nat} (all : index + (left + 1) = maxVarintBytes)
    (small : digit < 128) (single : ¬ (left = 0 ∧ 1 < digit)) :
    digit * Nat.pow 128 index < Word.count 64 := by
  rw [maxVarintBytes] at all
  by_cases last : left = 0
  · have tenth : index = 9 := by omega
    have bit : digit ≤ 1 := Nat.le_of_not_lt fun large => single ⟨last, large⟩
    rw [tenth]
    exact Nat.lt_of_le_of_lt (Nat.mul_le_mul_right _ bit) (by decide)
  · have weight : Nat.pow 128 index ≤ Nat.pow 128 8 :=
      Nat.pow_le_pow_right (by decide) (by omega)
    calc digit * Nat.pow 128 index
        ≤ 127 * Nat.pow 128 8 := Nat.mul_le_mul (Nat.le_of_lt_succ small) weight
      _ < Word.count 64 := by decide

/-- The number of which the lower digits amount to `total` and the further ones have been read. -/
def joined (total : UInt64) (index : Nat) : Except Damage Nat → Result UInt64
  | .ok higher => .ok (UInt64.ofNat (total.toNat + higher * Nat.pow 128 index))
  | .error damage => .error (.corruption damage)

/-- A digit in its place counts with the lower ones as well as with the further ones. -/
theorem joined_digit {total more : UInt64} {index digit : Nat}
    (placed : more.toNat = total.toNat + digit * Nat.pow 128 index) (read : Except Damage Nat) :
    joined more (index + 1) read =
      joined total index (read.map fun higher => digit + 128 * higher) := by
  cases read with
  | error damage => rfl
  | ok higher =>
      have weight : Nat.pow 128 (index + 1) = 128 * Nat.pow 128 index := Nat.mul_comm _ _
      show Except.ok _ = Except.ok _
      rw [placed, weight, Nat.add_mul, Nat.add_assoc, Nat.mul_comm 128 higher, Nat.mul_assoc]

theorem readVarintFrom_of_more {left : Nat} (index : Nat) {byte : UInt8} (rest : Bytes)
    (single : ¬ (left = 0 ∧ 1 < byte.toNat % 128)) (more : ¬ byte.toNat < 128) :
    readVarintFrom (left + 1) index (byte :: rest) =
      ((readVarintFrom left (index + 1) rest).1.map fun higher => byte.toNat % 128 + 128 * higher,
        (readVarintFrom left (index + 1) rest).2) := by
  rw [readVarintFrom, if_neg single, if_neg more]
  rcases readVarintFrom left (index + 1) rest with ⟨damage | higher, behind⟩ <;> rfl

theorem varintFrom_eq {source : Bytes} (inMemory : source.length < offsetLimit) {left index : Nat}
    (all : index + left = maxVarintBytes) {total : UInt64} (small : total.toNat < Nat.pow 128 index)
    {offset : Nat} (inside : offset ≤ source.length) :
    ∃ after, offset ≤ after ∧ after ≤ source.length ∧
      varintFrom source left index (7 * index) total offset =
        some (joined total index (readVarintFrom left index (source.drop offset)).1, after) ∧
      (readVarintFrom left index (source.drop offset)).2 = source.drop after := by
  induction left generalizing index total offset with
  | zero => exact ⟨offset, Nat.le_refl offset, inside, rfl, rfl⟩
  | succ left inductionHypothesis =>
      rcases Nat.lt_or_eq_of_le inside with behind | atEnd
      · obtain ⟨byte, present⟩ : ∃ byte, source[offset]? = some byte :=
          ⟨_, List.getElem?_eq_getElem behind⟩
        have split : source.drop offset = byte :: source.drop (offset + 1) := by
          rw [List.drop_eq_getElem?_toList_append, present]
          rfl
        have room : offset + 1 < Word.count 64 := Nat.lt_of_le_of_lt behind inMemory
        have last : index = 9 ↔ left = 0 := by
          rw [maxVarintBytes] at all
          omega
        have large : 1 < (byte &&& 0x7F).toUInt64 ↔ 1 < byte.toNat % 128 := by
          rw [UInt64.lt_iff_toNat_lt, toNat_digit]
          rfl
        rw [split, varintFrom, present]
        simp only [fits?_of_lt room, Option.bind_eq_bind, Option.bind_some, last, large, isLast_iff]
        by_cases tooLarge : left = 0 ∧ 1 < byte.toNat % 128
        · rw [if_pos tooLarge, readVarintFrom, if_pos tooLarge]
          exact ⟨offset + 1, Nat.le_succ offset, behind, rfl, rfl⟩
        · have places : 7 * index < 64 := by
            rw [maxVarintBytes] at all
            omega
          have digit : byte.toNat % 128 < 128 := Nat.mod_lt _ (by decide)
          have placed : (total ||| (byte &&& 0x7F).toUInt64 <<< UInt64.ofNat (7 * index)).toNat =
              total.toNat + byte.toNat % 128 * Nat.pow 128 index := by
            have fits := digit_fits all digit tooLarge
            rw [← toNat_digit] at fits ⊢
            exact toNat_placed small fits places
          rw [if_neg tooLarge, shiftLeft?, if_pos places, Option.bind_some]
          by_cases isLast : byte.toNat < 128
          · rw [if_pos isLast, readVarintFrom, if_neg tooLarge, if_pos isLast]
            refine ⟨offset + 1, Nat.le_succ offset, behind, ?_, rfl⟩
            rw [joined, ← placed, UInt64.ofNat_toNat]
          · have shift : 7 * index + 7 < Word.count 32 :=
              Nat.lt_trans (by omega : 7 * index + 7 < 71) (by decide)
            have weight : Nat.pow 128 (index + 1) = Nat.pow 128 index * 128 := rfl
            have bounded := Nat.mul_le_mul_right (Nat.pow 128 index) (Nat.le_of_lt_succ digit)
            obtain ⟨after, forward, bound, ran, rest⟩ :=
              inductionHypothesis ((Nat.add_right_comm index 1 left).trans all)
                (lt_of_eq_of_lt placed (by omega)) behind
            rw [if_neg isLast, fits?_of_lt shift, Option.bind_some,
              readVarintFrom_of_more index _ tooLarge isLast]
            refine ⟨after, Nat.le_of_succ_le forward, bound, ran.trans ?_, rest⟩
            rw [joined_digit placed]
      · subst atEnd
        rw [List.drop_length]
        refine ⟨source.length, Nat.le_refl _, inside, ?_, (List.drop_length ..).symm⟩
        rw [varintFrom, List.getElem?_eq_none (Nat.le_refl _)]
        rfl

theorem advanceTo_startAt {source : Bytes} {offset after : Nat} (forward : offset ≤ after)
    (bound : after ≤ source.length) :
    (Cursor.startAt source offset).advanceTo (source.drop after) = Cursor.startAt source after := by
  have reached : offset + ((source.drop offset).length - (source.drop after).length) = after := by
    rw [List.length_drop, List.length_drop]
    omega
  rw [Cursor.advanceTo, Cursor.startAt, Cursor.startAt, reached]

/-- What the step reads is the number that the loop has joined. -/
theorem read_varint (cursor : Cursor) :
    Read.varint cursor =
      (joined 0 0 (readVarint cursor.rest).1, cursor.advanceTo (readVarint cursor.rest).2) := by
  rw [Read.varint]
  rcases readVarint cursor.rest with ⟨damage | value, behind⟩
  · rfl
  · have whole : (0 : UInt64).toNat + value * Nat.pow 128 0 = value :=
      (Nat.zero_add _).trans (Nat.mul_one value)
    rw [joined, whole]

/-- The reader by offsets reads numbers of variable length as the step by cursors does. -/
theorem follows_varint : Follows varint Read.varint := by
  intro source offset inMemory inside
  obtain ⟨after, forward, bound, ran, rest⟩ :=
    varintFrom_eq inMemory (Nat.zero_add maxVarintBytes) (by decide : (0 : UInt64).toNat < 1) inside
  refine ⟨_, after, ran, bound, ?_⟩
  rw [← advanceTo_startAt forward bound, ← rest, read_varint]
  rfl

/-! ### Escaped strings -/

theorem of_drop_eq_cons {part rest : Bytes} {index : Nat} {byte : UInt8}
    (split : part.drop index = byte :: rest) :
    index < part.length ∧ part[index]? = some byte ∧ part.drop (index + 1) = rest := by
  have inside : index < part.length := by
    apply Nat.lt_of_not_le
    intro beyond
    rw [List.drop_of_length_le beyond] at split
    exact nomatch split
  rw [List.drop_eq_getElem_cons inside, List.cons.injEq] at split
  exact ⟨inside, (List.getElem?_eq_getElem inside).trans (congrArg some split.1), split.2⟩

section

variable {part rest : Bytes} {index : Nat} {byte : UInt8}

theorem splitFrom_nil (split : part.drop index = []) (found : Bytes) :
    splitFrom part index found = some (.error .unterminated) := by
  rw [splitFrom, if_neg (Nat.not_lt.2 (List.drop_eq_nil_iff.1 split))]

theorem splitFrom_plain (inMemory : part.length < offsetLimit)
    (split : part.drop index = byte :: rest) (nonzero : byte ≠ 0) (found : Bytes) :
    splitFrom part index found = splitFrom part (index + 1) (found ++ [byte]) := by
  obtain ⟨inside, present, _⟩ := of_drop_eq_cons split
  have room : index + 1 < Word.count 64 := Nat.lt_of_le_of_lt inside inMemory
  rw [splitFrom, if_pos inside, present]
  simp only [fits?_of_lt room, Option.bind_eq_bind, Option.bind_some]
  rw [if_pos nonzero]

theorem splitFrom_torn (inMemory : part.length < offsetLimit) (split : part.drop index = [0])
    (found : Bytes) : splitFrom part index found = some (.error .unterminated) := by
  obtain ⟨inside, present, behind⟩ := of_drop_eq_cons split
  have room : index + 1 < Word.count 64 := Nat.lt_of_le_of_lt inside inMemory
  have noMark : part[index + 1]? = none := List.getElem?_eq_none (List.drop_eq_nil_iff.1 behind)
  rw [splitFrom, if_pos inside, present]
  simp only [fits?_of_lt room, noMark, Option.bind_eq_bind, Option.bind_some]
  exact if_neg (not_not_intro rfl)

/-- Behind a zero byte the next one decides. -/
theorem splitFrom_zero (inMemory : part.length < offsetLimit) {mark : UInt8}
    (split : part.drop index = 0 :: mark :: rest) (found : Bytes) :
    splitFrom part index found =
      if mark = 255 then splitFrom part (index + 2) (found ++ [0])
      else if mark = 1 then some (.ok (found, index + 2))
      else some (.error (.badEscape mark index)) := by
  obtain ⟨inside, present, behind⟩ := of_drop_eq_cons split
  obtain ⟨insideMark, marked, _⟩ := of_drop_eq_cons behind
  have room : index + 1 < Word.count 64 := Nat.lt_of_le_of_lt inside inMemory
  have roomMark : index + 2 < Word.count 64 := Nat.lt_of_le_of_lt insideMark inMemory
  rw [splitFrom, if_pos inside, present]
  simp only [fits?_of_lt room, fits?_of_lt roomMark, marked, Option.bind_eq_bind, Option.bind_some]
  exact if_neg (not_not_intro rfl)

/-- The loop has ended as the reading of what it had before it: with the string behind `found`, at
the index where the reading has ended, or with the same damage. -/
def Ends (part found : Bytes) (ran : Option (Except Damage (Bytes × Nat)))
    (read : Except Damage (Bytes × Bytes)) : Prop :=
  ∃ consumed ≤ part.length, ran = some (read.map fun taken => (found ++ taken.1, consumed)) ∧
    ∀ taken, read = .ok taken → taken.2 = part.drop consumed

theorem Ends.damaged (part found : Bytes) (damage : Damage) :
    Ends part found (some (.error damage)) (.error damage) :=
  ⟨0, Nat.zero_le _, rfl, fun _ accepted => nomatch accepted⟩

theorem Ends.finished {consumed : Nat} (inside : consumed ≤ part.length) (found : Bytes) :
    Ends part found (some (.ok (found, consumed))) (.ok ([], part.drop consumed)) := by
  refine ⟨consumed, inside, ?_, ?_⟩
  · rw [Except.map, List.append_nil]
  · rintro _ ⟨⟩
    rfl

/-- A byte that the loop has found is the first one of what has been read. -/
theorem Ends.cons {found : Bytes} {ran : Option (Except Damage (Bytes × Nat))}
    {read : Except Damage (Bytes × Bytes)} (ends : Ends part (found ++ [byte]) ran read) :
    Ends part found ran (read.map fun taken => (byte :: taken.1, taken.2)) := by
  obtain ⟨consumed, inside, rfl, last⟩ := ends
  refine ⟨consumed, inside, ?_, ?_⟩
  · cases read with
    | error damage => rfl
    | ok taken =>
        show some (Except.ok (found ++ [byte] ++ taken.1, consumed)) = _
        rw [List.append_assoc]
        rfl
  · cases read with
    | error damage => exact fun _ accepted => nomatch accepted
    | ok taken =>
        rintro _ ⟨⟩
        exact last taken rfl

/-- The loop over indexes ends as the reading of what lies behind its index. -/
theorem ends_splitFrom (inMemory : part.length < offsetLimit) (index : Nat) (found : Bytes) :
    Ends part found (splitFrom part index found) (readEscapedFrom index (part.drop index)) := by
  generalize split : part.drop index = behind
  induction index, behind using readEscapedFrom.induct generalizing found with
  | case1 index =>
      rw [splitFrom_nil split]
      exact .damaged part found _
  | case2 index =>
      rw [splitFrom_torn inMemory split]
      exact .damaged part found _
  | case3 index rest inductionHypothesis =>
      have behind := (of_drop_eq_cons (of_drop_eq_cons split).2.2).2.2
      rw [splitFrom_zero inMemory split, readEscapedFrom, if_pos rfl, if_pos rfl]
      exact (inductionHypothesis (found ++ [0]) behind).cons
  | case4 index rest =>
      obtain ⟨inside, _, behind⟩ := of_drop_eq_cons (of_drop_eq_cons split).2.2
      rw [splitFrom_zero inMemory split, ← behind]
      exact .finished inside found
  | case5 index mark rest notZero notEnd =>
      rw [splitFrom_zero inMemory split, if_neg notZero, if_neg notEnd, readEscapedFrom, if_pos rfl,
        if_neg notZero, if_neg notEnd]
      exact .damaged part found _
  | case6 index byte rest nonzero inductionHypothesis =>
      have behind := (of_drop_eq_cons split).2.2
      rw [splitFrom_plain inMemory split nonzero, readEscapedFrom.eq_def]
      dsimp only
      rw [if_neg nonzero]
      exact (inductionHypothesis (found ++ [byte]) behind).cons

end

theorem follows_escaped : Follows escaped Read.escaped := by
  intro source offset inMemory inside
  have length : (source.drop offset).length = source.length - offset := List.length_drop
  have partInMemory : (source.drop offset).length < offsetLimit := by omega
  obtain ⟨consumed, bound, ran, last⟩ := ends_splitFrom partInMemory 0 []
  have whole : part? source offset source.length = some (source.drop offset) := by
    rw [part?_of_le inside (Nat.le_refl _), ← length, List.take_length]
  rw [List.drop_zero] at ran last
  rw [escaped, whole]
  simp only [Option.bind_eq_bind, Option.bind_some, ran]
  have start : (Cursor.startAt source offset).rest = source.drop offset := rfl
  rw [Read.escaped, start]
  rcases read : readEscapedFrom 0 (source.drop offset) with damage | ⟨content, behind⟩
  · exact ⟨_, offset, rfl, inside, rfl⟩
  · have after : behind = source.drop (offset + consumed) := by
      rw [← List.drop_drop]
      exact last _ read
    have room : offset + consumed < Word.count 64 := Nat.lt_of_le_of_lt (by omega) inMemory
    refine ⟨.ok content, offset + consumed, ?_, by omega, ?_⟩
    · simp only [Except.map, fits?_of_lt room, Option.bind_some]
      rfl
    · rw [after]
      exact congrArg _ (advanceTo_startAt (Nat.le_add_right _ _) (by omega))

/-! ### Sequences -/

/-- The step of every kind of field follows the cursor. -/
theorem follows_read (kind : FieldKind) : Follows (read kind) kind.read := by
  cases kind with
  | uint8 => exact (((follows_takeArray 1).map _).map _).mapped _
  | uint32 => exact (((follows_takeArray 4).map _).map _).mapped _
  | uint64 => exact (((follows_takeArray 8).map _).map _).mapped _
  | int32 => exact ((follows_takeArray 4).map _).mapped _
  | int64 => exact ((follows_takeArray 8).map _).mapped _
  | double => exact ((follows_takeArray 8).map _).mapped _
  | varint => exact follows_varint.mapped _
  | escaped => exact follows_escaped.mapped _
  | raw length => exact (follows_take length).mapped _

end Indexed

/-- Reads fields of the given kinds, each from the cursor that the one before it has left, be it
behind a field or behind a failure. -/
def attempts : List FieldKind → Cursor → List (Result Field × Cursor)
  | [], _ => []
  | kind :: kinds, cursor => kind.read cursor :: attempts kinds (kind.read cursor).2

/-- No sequence of readings stops, and each one ends where the cursor does, within the source. -/
theorem Indexed.readEach_eq {source : Bytes} (inMemory : source.length < offsetLimit)
    (kinds : List FieldKind) {offset : Nat} (inside : offset ≤ source.length) :
    ∃ outcomes, readEach source kinds offset = some outcomes ∧
      (∀ outcome ∈ outcomes, outcome.2 ≤ source.length) ∧
      attempts kinds (Cursor.startAt source offset) =
        outcomes.map fun outcome => (outcome.1, Cursor.startAt source outcome.2) := by
  induction kinds generalizing offset with
  | nil => exact ⟨[], rfl, List.forall_mem_nil _, rfl⟩
  | cons kind kinds inductionHypothesis =>
      obtain ⟨outcome, after, ran, bound, same⟩ := follows_read kind source offset inMemory inside
      obtain ⟨outcomes, others, bounds, rest⟩ := inductionHypothesis bound
      refine ⟨(outcome, after) :: outcomes, ?_, List.forall_mem_cons.2 ⟨bound, bounds⟩, ?_⟩
      · rw [readEach, ran]
        simp only [Option.bind_eq_bind, Option.bind_some, others]
      · rw [attempts, same, rest, List.map_cons]

/-- Every sequence of fields marks its own ends. Behind what has been written, and in front of any
bytes, the fields are read back, each with the cursor behind all that was written so far. Cut off
anywhere, the sequence is read up to the field that the cut goes through, and there the reader
reports damage. Whatever a source holds and whatever is read from it, after failures too, no access
leaves the source, no word overflows, and every cursor stays within the source. Byte strings in
memory are shorter than a machine word counts. -/
theorem fields_selfDelimiting {fields : List Field}
    (fits : (Field.encodeAll fields).length < offsetLimit) {source : Bytes}
    (inMemory : source.length < offsetLimit) :
    (∀ behind,
        readFields (fields.map Field.kind) (Cursor.start (Field.encodeAll fields ++ behind)) =
          (Field.passed (Field.encodeAll fields ++ behind) fields, none)) ∧
      (∀ cut < (Field.encodeAll fields).length, ∃ whole field later damage,
        fields = whole ++ field :: later ∧ (Field.encodeAll whole).length ≤ cut ∧
        cut < (Field.encodeAll (whole ++ [field])).length ∧
        readFields (fields.map Field.kind) (Cursor.start ((Field.encodeAll fields).take cut)) =
          (Field.passed ((Field.encodeAll fields).take cut) whole, some (.corruption damage))) ∧
      ∀ kinds, ∃ outcomes, Indexed.readEach source kinds 0 = some outcomes ∧
        (∀ outcome ∈ outcomes, outcome.2 ≤ source.length) ∧
        attempts kinds (Cursor.start source) =
          outcomes.map fun outcome => (outcome.1, Cursor.startAt source outcome.2) :=
  ⟨readFields_whole fits, fun _ inside => readFields_cut fits inside,
    fun kinds => Indexed.readEach_eq inMemory kinds (Nat.zero_le source.length)⟩

/-- A number, a byte string, a signed number and a number of variable length. -/
def mixedFields : List Field := [.uint64 42, .escaped [110, 0, 101], .int64 (-7), .varint 300]

/-- The fields end where the foreign byte begins; without their last byte the last number is cut
off. A number whose first byte announces another one leaves the cursor at the end of the source,
where the next reading fails as well. -/
theorem fields_selfDelimiting_mixed :
    (readFields (mixedFields.map Field.kind)
        (Cursor.start (Field.encodeAll mixedFields ++ [0x80]))).1.map (fun read => read.2.offset) =
      [8, 14, 22, 24] ∧
    (∃ damage, (readFields (mixedFields.map Field.kind)
        (Cursor.start ((Field.encodeAll mixedFields).take 23))).2 = some (.corruption damage)) ∧
    ∃ outcomes, Indexed.readEach [0x80] [.varint, .uint8] 0 = some outcomes ∧
      attempts [.varint, .uint8] (Cursor.start [0x80]) =
        outcomes.map fun outcome => (outcome.1, Cursor.startAt [0x80] outcome.2) := by
  have encoded : Field.encodeAll mixedFields =
      [0, 0, 0, 0, 0, 0, 0, 42, 110, 0, 255, 101, 0, 1, 127, 255, 255, 255, 255, 255, 255, 249,
        172, 2] := by
    have number : varint 300 = [172, 2] := by
      rw [varint, if_neg (by decide), varint, if_pos (by decide)]
      rfl
    show Bytes.ofUInt64 42 ++ (escaped [110, 0, 101] ++ (int64Key (-7) ++ (varint 300 ++ []))) = _
    rw [number]
    decide
  have fits : (Field.encodeAll mixedFields).length < offsetLimit := by
    rw [encoded]
    decide
  have inMemory : ([0x80] : Bytes).length < offsetLimit := by decide
  obtain ⟨whole, torn, anywhere⟩ := fields_selfDelimiting fits inMemory
  refine ⟨?_, ?_, ?_⟩
  · rw [whole [0x80]]
    show [8, 14, 22, 0 + (Field.encodeAll mixedFields).length] = _
    rw [encoded]
    rfl
  · obtain ⟨_, _, _, damage, -, -, -, read⟩ := torn 23 (by rw [encoded]; decide)
    exact ⟨damage, congrArg Prod.snd read⟩
  · obtain ⟨outcomes, ran, -, same⟩ := anywhere [.varint, .uint8]
    exact ⟨outcomes, ran, same⟩

end GraphStore.Encoding
