import GraphStore.Proofs.Encoding.Offsets
import Mathlib.Algebra.BigOperators.Ring.List
import Mathlib.Algebra.Ring.Nat

/-!
Contract: numbers of variable length, written and read exactly.

Owns what such a number is apart from any reader: bytes of which every one but the last announces a
further one (`Closed`), and the sum of their digits by place (`weigh`). A reader at any offset
accepts the closed numbers of at most ten bytes that a word holds and nothing else, and answers
their sum (`read_varint_eq_ok`). The induction goes along the digits: with one place less, the
digits behind the first one have a bound 128 times smaller, down to the tenth place with a bound of
one bit.

Owns as well what a machine does with words in place of numbers: writing (`varintWord`), and the
folding of signs by two shifts and an exclusive or, of which the second shift spreads the sign over
the whole word (`foldWord`, `unfoldWord`).
-/

namespace GraphStore.Encoding

/-! ### The grammar -/

/-- The seven bits of a byte that count. -/
def digit (byte : UInt8) : Nat := (byte &&& 0x7F).toNat

/-- Whether the high bit of a byte announces a further one. -/
def Continues (byte : UInt8) : Prop := byte &&& 0x80 ≠ 0

instance (byte : UInt8) : Decidable (Continues byte) := inferInstanceAs (Decidable (_ ≠ _))

/-- Every byte but the last one announces a further one. -/
def Closed (number : Bytes) : Prop :=
  ∃ front last, number = front ++ [last] ∧ (∀ byte ∈ front, Continues byte) ∧ ¬ Continues last

/-- The digits of a number, each by the weight of its place, in sum. -/
def weigh (number : Bytes) : Nat :=
  (number.mapIdx fun place byte => digit byte * Nat.pow 128 place).sum

/-- At an offset in a source there is a number of at most ten bytes that a word holds. -/
structure NumberAt (source : Bytes) (offset : Nat) (number : Bytes) : Prop where
  front : number <+: source.drop offset
  closed : Closed number
  short : number.length ≤ 10
  fits : weigh number < Word.count 64

theorem digit_eq (byte : UInt8) : digit byte = byte.toNat % 128 := by
  rw [digit, ← Indexed.toNat_digit, UInt8.toNat_toUInt64]

theorem not_continues_iff (byte : UInt8) : ¬ Continues byte ↔ byte.toNat < 128 := by
  rw [Continues, not_not, Indexed.isLast_iff]

theorem closed_cons (byte : UInt8) (rest : Bytes) :
    Closed (byte :: rest) ↔ ¬ Continues byte ∧ rest = [] ∨ Continues byte ∧ Closed rest := by
  constructor
  · rintro ⟨front, last, split, continued, ends⟩
    cases front with
    | nil =>
        obtain ⟨rfl, rfl⟩ := List.cons.inj split
        exact .inl ⟨ends, rfl⟩
    | cons first front =>
        obtain ⟨rfl, rfl⟩ := List.cons.inj split
        obtain ⟨head, continued⟩ := List.forall_mem_cons.1 continued
        exact .inr ⟨head, front, last, rfl, continued, ends⟩
  · rintro (⟨ends, rfl⟩ | ⟨head, front, last, rfl, continued, ends⟩)
    · exact ⟨[], byte, rfl, List.forall_mem_nil _, ends⟩
    · exact ⟨byte :: front, last, rfl, List.forall_mem_cons.2 ⟨head, continued⟩, ends⟩

theorem Closed.length_pos {number : Bytes} (closed : Closed number) : 0 < number.length := by
  obtain ⟨front, last, rfl, _⟩ := closed
  rw [List.length_append]
  exact Nat.succ_pos _

theorem not_closed_nil : ¬ Closed [] := fun closed => Nat.lt_irrefl 0 closed.length_pos

/-- The digits behind the first one weigh 128 times what they weigh alone. -/
theorem weigh_cons (byte : UInt8) (rest : Bytes) :
    weigh (byte :: rest) = digit byte + 128 * weigh rest := by
  have shifted : (rest.mapIdx fun place byte => digit byte * Nat.pow 128 (place + 1)).sum =
      128 * weigh rest := by
    rw [weigh, List.mapIdx_eq_zipIdx_map, List.mapIdx_eq_zipIdx_map]
    refine Eq.trans (congrArg List.sum ?_) (List.sum_map_mul_left rest.zipIdx
      (fun placed => digit placed.1 * Nat.pow 128 placed.2) 128)
    refine List.map_congr_left fun placed _ => ?_
    calc digit placed.1 * (Nat.pow 128 placed.2 * 128)
        = digit placed.1 * Nat.pow 128 placed.2 * 128 := (Nat.mul_assoc ..).symm
      _ = 128 * (digit placed.1 * Nat.pow 128 placed.2) := Nat.mul_comm ..
  rw [weigh, List.mapIdx_cons, List.sum_cons, shifted]
  exact congrArg (· + _) (Nat.mul_one _)

theorem weigh_singleton (byte : UInt8) : weigh [byte] = digit byte := weigh_cons byte []

/-! ### Reading -/

theorem readVarintFrom_of_last {left : Nat} (index : Nat) {byte : UInt8} (rest : Bytes)
    (single : ¬ (left = 0 ∧ 1 < byte.toNat % 128)) (last : byte.toNat < 128) :
    readVarintFrom (left + 1) index (byte :: rest) = (.ok (digit byte), rest) := by
  rw [readVarintFrom, if_neg single, if_pos last, digit_eq]

/-- A number within the bound is read; the last digit that can be read has a single bit. -/
theorem readVarintFrom_of_closed {left : Nat} (index : Nat) {number : Bytes} (behind : Bytes)
    (closed : Closed number) (short : number.length ≤ left + 1)
    (fits : weigh number < 2 * Nat.pow 128 left) :
    readVarintFrom (left + 1) index (number ++ behind) = (.ok (weigh number), behind) := by
  induction number generalizing left index with
  | nil => exact absurd closed not_closed_nil
  | cons byte rest inductionHypothesis =>
      rw [weigh_cons] at fits ⊢
      rcases (closed_cons byte rest).1 closed with ⟨ends, rfl⟩ | ⟨continued, closed⟩
      · have single : ¬ (left = 0 ∧ 1 < byte.toNat % 128) := by
          rintro ⟨rfl, large⟩
          rw [← digit_eq] at large
          have weight : Nat.pow 128 0 = 1 := rfl
          omega
        exact readVarintFrom_of_last index behind single ((not_continues_iff byte).1 ends)
      · obtain ⟨more, rfl⟩ : ∃ more, left = more + 1 := by
          have filled := closed.length_pos
          rw [List.length_cons] at short
          exact ⟨left - 1, by omega⟩
        have weight : Nat.pow 128 (more + 1) = Nat.pow 128 more * 128 := rfl
        rw [List.cons_append, Indexed.readVarintFrom_of_more index _ (by omega)
          (mt (not_continues_iff byte).2 (not_not_intro continued)),
          inductionHypothesis (index + 1) closed (Nat.le_of_succ_le_succ short) (by omega),
          digit_eq]
        rfl

/-- What has been read is a number within the bound. -/
theorem exists_closed_of_readVarintFrom {left index value : Nat} {source behind : Bytes}
    (read : readVarintFrom (left + 1) index source = (.ok value, behind)) :
    ∃ number, source = number ++ behind ∧ Closed number ∧ number.length ≤ left + 1 ∧
      weigh number < 2 * Nat.pow 128 left ∧ value = weigh number := by
  induction source generalizing left index value with
  | nil => cases read
  | cons byte rest inductionHypothesis =>
      have small : byte.toNat % 128 < 128 := Nat.mod_lt _ (by decide)
      by_cases tooLarge : left = 0 ∧ 1 < byte.toNat % 128
      · rw [readVarintFrom, if_pos tooLarge] at read
        cases read
      by_cases last : byte.toNat < 128
      · rw [readVarintFrom_of_last index rest tooLarge last] at read
        obtain ⟨same, rfl⟩ := Prod.mk.inj read
        have closed : Closed [byte] :=
          (closed_cons byte []).2 (.inl ⟨(not_continues_iff byte).2 last, rfl⟩)
        have weight : left ≠ 0 → 128 ≤ Nat.pow 128 left := fun filled =>
          Nat.le_self_pow filled 128
        have unit : left = 0 → Nat.pow 128 left = 1 := by
          rintro rfl
          rfl
        refine ⟨[byte], rfl, closed, Nat.succ_le_succ (Nat.zero_le left), ?_, ?_⟩
        · rw [weigh_singleton, digit_eq]
          omega
        · rw [weigh_singleton]
          exact (Except.ok.inj same).symm
      · rw [Indexed.readVarintFrom_of_more index rest tooLarge last] at read
        obtain ⟨same, after⟩ := Prod.mk.inj read
        rcases further : readVarintFrom left (index + 1) rest with ⟨damage | higher, tail⟩
        · rw [further] at same
          cases same
        · rw [further] at same after
          obtain rfl : tail = behind := after
          obtain ⟨more, rfl⟩ : ∃ more, left = more + 1 := by
            cases left with
            | zero => cases further
            | succ more => exact ⟨more, rfl⟩
          obtain ⟨number, rfl, closed, short, fits, rfl⟩ := inductionHypothesis further
          have weight : Nat.pow 128 (more + 1) = Nat.pow 128 more * 128 := rfl
          have continued : Continues byte := by
            by_contra ends
            exact last ((not_continues_iff byte).1 ends)
          refine ⟨byte :: number, ?_, (closed_cons byte number).2 (.inr ⟨continued, closed⟩),
            Nat.succ_le_succ short, ?_, ?_⟩
          · rw [List.cons_append]
          · rw [weigh_cons, digit_eq]
            omega
          · rw [weigh_cons, digit_eq]
            exact (Except.ok.inj same).symm

/-- The digits that make a number fit a word are within ten bytes, of the last of which a single bit
counts. -/
theorem readVarint_eq_ok {source behind : Bytes} {value : Nat} :
    readVarint source = (.ok value, behind) ↔
      ∃ number, source = number ++ behind ∧ Closed number ∧ number.length ≤ 10 ∧
        weigh number < Word.count 64 ∧ value = weigh number := by
  constructor
  · exact exists_closed_of_readVarintFrom
  · rintro ⟨number, rfl, closed, short, fits, rfl⟩
    exact readVarintFrom_of_closed 0 behind closed short fits


/-! ### Writing -/

theorem length_varint_le {count value : Nat} (fits : value < Nat.pow 128 (count + 1)) :
    (varint value).length ≤ count + 1 := by
  induction count generalizing value with
  | zero =>
      rw [varint, if_pos fits]
      exact Nat.le_refl 1
  | succ count inductionHypothesis =>
      rw [varint]
      split
      · exact Nat.succ_le_succ (Nat.zero_le _)
      · have higher : value / 128 < Nat.pow 128 (count + 1) :=
          Nat.div_lt_of_lt_mul (lt_of_lt_of_eq fits (Nat.mul_comm ..))
        exact Nat.succ_le_succ (inductionHypothesis higher)

theorem length_varint_le_ten {value : Nat} (fits : value < Word.count 64) :
    (varint value).length ≤ 10 :=
  length_varint_le (Nat.lt_trans fits (by decide))

/-- A shift by less than the width divides by a power of two. -/
theorem toNat_shiftRight (value : UInt64) {places : UInt64} (narrow : places.toNat < 64) :
    (value >>> places).toNat = value.toNat / 2 ^ places.toNat := by
  rw [UInt64.toNat_shiftRight, Nat.mod_eq_of_lt narrow, Nat.shiftRight_eq_div_pow]

/-- The digits of a word, lowest first. -/
def varintWord (value : UInt64) : Bytes :=
  let lowest := (value &&& 0x7F).toUInt8
  let higher := value >>> 7
  if higher = 0 then [lowest] else (lowest ||| 0x80) :: varintWord higher
termination_by value.toNat
decreasing_by
  rename_i further
  have filled : (value >>> 7).toNat ≠ 0 := fun none => further (UInt64.toNat_inj.1 none)
  have divided : (value >>> 7).toNat = value.toNat / 128 := toNat_shiftRight value (by decide)
  omega

theorem toNat_lowest (value : UInt64) : (value &&& 0x7F).toUInt8.toNat = value.toNat % 128 := by
  have digit : (value &&& 0x7F).toNat = value.toNat % 128 := by
    rw [UInt64.toNat_and]
    exact Nat.and_two_pow_sub_one_eq_mod value.toNat 7
  rw [UInt64.toNat_toUInt8, digit]
  omega

/-- The high bit joins a digit without a carry. -/
theorem toNat_announcing {byte : UInt8} (small : byte.toNat < 128) :
    (byte ||| 0x80).toNat = byte.toNat + 128 := by
  have low : ∀ number : Fin 128, number.val ||| 128 = number.val + 128 := by decide
  rw [UInt8.toNat_or]
  exact low ⟨byte.toNat, small⟩

theorem varintWord_eq (value : UInt64) : varintWord value = varint value.toNat := by
  induction value using varintWord.induct with
  | case1 value higher none =>
      have small : value.toNat < 128 := by
        have zero : (value >>> 7).toNat = 0 := congrArg UInt64.toNat none
        rw [toNat_shiftRight value (by decide)] at zero
        exact Nat.lt_of_div_eq_zero (by decide) zero
      have lowest := toNat_lowest value
      rw [Nat.mod_eq_of_lt small] at lowest
      rw [varintWord, varint, if_pos small, ← lowest, UInt8.ofNat_toNat]
      exact if_pos none
  | case2 value higher further inductionHypothesis =>
      have divided : (value >>> 7).toNat = value.toNat / 128 := toNat_shiftRight value (by decide)
      have large : ¬ value.toNat < 128 := by
        intro small
        apply further
        rw [← UInt64.toNat_inj, divided]
        exact Nat.div_eq_of_lt small
      have digit : value.toNat % 128 < 128 := Nat.mod_lt _ (by decide)
      have first : (value &&& 0x7F).toUInt8 ||| 0x80 = UInt8.ofNat (value.toNat % 128 + 128) := by
        have lowest := toNat_lowest value
        rw [← UInt8.toNat_inj, toNat_announcing (lt_of_eq_of_lt lowest digit), lowest,
          UInt8.toNat_ofNat']
        omega
      rw [varint, if_neg large, ← first, ← divided, ← inductionHypothesis,
        varintWord]
      exact if_neg further

/-! ### Signs -/

/-- A signed word, doubled, and complemented if it is negative. -/
def foldWord (value : Int64) : UInt64 := ((value <<< 1) ^^^ (value >>> 63)).toUInt64

/-- A folded word, halved, and complemented if it is odd. -/
def unfoldWord (folded : UInt64) : Int64 := (folded >>> 1).toInt64 ^^^ -(folded &&& 1).toInt64

/-- The arithmetic shift by all places but one leaves copies of the sign. -/
theorem sshiftRight_sign (bits : BitVec 64) :
    bits.sshiftRight 63 = if bits.msb then BitVec.allOnes 64 else 0#64 := by
  apply BitVec.eq_of_getLsbD_eq
  intro place inside
  have top : (if 63 + place < 64 then bits.getLsbD (63 + place) else bits.msb) = bits.msb := by
    split
    · have first : place = 0 := by omega
      rw [first, BitVec.msb_eq_getLsbD_last]
    · rfl
  rw [BitVec.getLsbD_sshiftRight, decide_eq_false (Nat.not_le.2 inside), top]
  cases bits.msb with
  | false => exact BitVec.getLsbD_zero.symm
  | true => exact (BitVec.getLsbD_allOnes.trans (decide_eq_true inside)).symm

theorem toBitVec_foldWord (value : Int64) : (foldWord value).toBitVec =
    (value.toBitVec <<< 1) ^^^ (value.toBitVec.sshiftRight 63) := rfl

theorem toNat_foldWord (value : Int64) : (foldWord value).toNat = foldSign value := by
  have size : value.toBitVec.toNat < 18446744073709551616 := value.toBitVec.isLt
  have half := BitVec.msb_eq_decide value.toBitVec
  have number : value.toInt = _ := BitVec.toInt_eq_msb_cond value.toBitVec
  have doubled : (value.toBitVec <<< 1).toNat =
      2 * value.toBitVec.toNat % 18446744073709551616 := by
    rw [BitVec.toNat_shiftLeft, Nat.shiftLeft_eq, Nat.mul_comm]
  rw [UInt64.toNat, toBitVec_foldWord, sshiftRight_sign, foldSign]
  cases sign : value.toBitVec.msb with
  | false =>
      rw [sign] at number half
      rw [if_neg Bool.false_ne_true] at number ⊢
      have low := of_decide_eq_false half.symm
      rw [BitVec.xor_zero, doubled]
      split <;> omega
  | true =>
      rw [sign] at number half
      rw [if_pos rfl] at number ⊢
      have high := of_decide_eq_true half.symm
      rw [BitVec.xor_allOnes, BitVec.toNat_not, doubled]
      split <;> omega

theorem foldSign_lt (value : Int64) : foldSign value < Word.count 64 := by
  rw [← toNat_foldWord]
  exact (foldWord value).toNat_lt

theorem unfoldSign_foldSign (value : Int64) : unfoldSign (foldSign value) = value := by
  have low := value.le_toInt
  have high := value.toInt_lt
  rw [unfoldSign, foldSign]
  by_cases sign : 0 ≤ value.toInt
  · have even : (2 * value.toInt).toNat % 2 = 0 := by omega
    have half : (2 * value.toInt).toNat / 2 = value.toInt.toNat := by omega
    rw [if_pos sign, if_pos even, half]
    apply Int64.toInt_inj.1
    rw [Int64.toInt_ofNat_of_lt (by omega)]
    omega
  · have odd : ¬ (-2 * value.toInt - 1).toNat % 2 = 0 := by omega
    have half : -(((-2 * value.toInt - 1).toNat : Int) / 2) - 1 = value.toInt := by omega
    rw [if_neg sign, if_neg odd, half, Int64.ofInt_toInt]

theorem toNat_and_one (folded : UInt64) : (folded &&& 1).toNat = folded.toNat % 2 := by
  rw [UInt64.toNat_and]
  exact Nat.and_one_is_mod folded.toNat

/-- The lowest bit, negated, is nothing or the word of ones. -/
theorem unfoldWord_eq (folded : UInt64) : unfoldWord folded = unfoldSign folded.toNat := by
  have size := folded.toNat_lt
  have half : (folded >>> 1).toBitVec = BitVec.ofNat 64 (folded.toNat / 2) := by
    have halved : (folded >>> 1).toNat = folded.toNat / 2 := toNat_shiftRight folded (by decide)
    rw [← halved]
    exact congrArg UInt64.toBitVec UInt64.ofNat_toNat.symm
  rw [unfoldWord, unfoldSign]
  apply Int64.toBitVec_inj.1
  rcases Nat.mod_two_eq_zero_or_one folded.toNat with even | odd
  · have bit : folded &&& 1 = 0 := UInt64.toNat_inj.1 ((toNat_and_one folded).trans even)
    rw [if_pos even, bit]
    show (folded >>> 1).toBitVec ^^^ 0#64 = _
    rw [BitVec.xor_zero, half]
    rfl
  · have bit : folded &&& 1 = 1 := UInt64.toNat_inj.1 ((toNat_and_one folded).trans odd)
    have below : -((folded.toNat : Int) / 2) - 1 = Int.negSucc (folded.toNat / 2) := by omega
    rw [if_neg (by omega), bit, below]
    show (folded >>> 1).toBitVec ^^^ BitVec.allOnes 64 = BitVec.ofInt 64 _
    rw [BitVec.xor_allOnes, half, BitVec.ofInt_negSucc_eq_not_ofNat]

/-! ### Offsets -/

theorem advanceTo_behind {source number behind : Bytes} {offset : Nat}
    (split : source.drop offset = number ++ behind) :
    (Cursor.startAt source offset).advanceTo behind =
      Cursor.startAt source (offset + number.length) := by
  have rest : behind = source.drop (offset + number.length) := by
    rw [← List.drop_drop, split, List.drop_left]
  rw [Cursor.advanceTo, Cursor.startAt, Cursor.startAt, ← rest, split, List.length_append,
    Nat.add_sub_cancel]

/-- Behind the end of a source there is no first byte, so that the loop by words does not start. -/
theorem varint_eq_indexed {source : Bytes} (inMemory : source.length < offsetLimit) (offset : Nat) :
    ∃ outcome after, Indexed.varint source offset = some (outcome, after) ∧
      Read.varint (Cursor.startAt source offset) = (outcome, Cursor.startAt source after) := by
  by_cases inside : offset ≤ source.length
  · obtain ⟨outcome, after, ran, _, same⟩ := Indexed.follows_varint source offset inMemory inside
    exact ⟨outcome, after, ran, same⟩
  · have beyond : source.length ≤ offset := Nat.le_of_not_le inside
    have nothing : source.drop offset = [] := List.drop_of_length_le beyond
    refine ⟨.error (.corruption (.varintTruncated 0)), offset, ?_, ?_⟩
    · rw [Indexed.varint, maxVarintBytes, Indexed.varintFrom, List.getElem?_eq_none beyond]
    · rw [Cursor.startAt, nothing]
      rfl

section

variable {cursor : Cursor} {behind : Bytes}

theorem read_varint_of_ok {total : Nat} (read : readVarint cursor.rest = (.ok total, behind)) :
    Read.varint cursor = (.ok (UInt64.ofNat total), cursor.advanceTo behind) := by
  rw [Read.varint, read]

theorem read_varint_of_error {damage : Damage}
    (read : readVarint cursor.rest = (.error damage, behind)) :
    Read.varint cursor = (.error (.corruption damage), cursor.advanceTo behind) := by
  rw [Read.varint, read]

end

/-- At an offset a reading succeeds exactly on a number that a word holds. -/
theorem read_varint_eq_ok {source : Bytes} {offset : Nat} {value : UInt64} {after : Cursor} :
    Read.varint (Cursor.startAt source offset) = (.ok value, after) ↔
      ∃ number, NumberAt source offset number ∧ value.toNat = weigh number ∧
        after = Cursor.startAt source (offset + number.length) := by
  constructor
  · intro ran
    rcases read : readVarint (Cursor.startAt source offset).rest with ⟨damage | total, behind⟩
    · rw [read_varint_of_error read] at ran
      exact nomatch (Prod.mk.inj ran).1
    · rw [read_varint_of_ok read] at ran
      obtain ⟨same, rfl⟩ := Prod.mk.inj ran
      obtain rfl := Except.ok.inj same
      obtain ⟨number, split, closed, short, fits, rfl⟩ := readVarint_eq_ok.1 read
      exact ⟨number, ⟨⟨behind, split.symm⟩, closed, short, fits⟩,
        UInt64.toNat_ofNat_of_lt' fits, advanceTo_behind split⟩
  · rintro ⟨number, ⟨⟨behind, split⟩, closed, short, fits⟩, whole, rfl⟩
    have read : readVarint (Cursor.startAt source offset).rest = (.ok (weigh number), behind) :=
      readVarint_eq_ok.2 ⟨number, split.symm, closed, short, fits, rfl⟩
    rw [read_varint_of_ok read, advanceTo_behind split.symm, ← whole, UInt64.ofNat_toNat]

theorem read_varint_startAt (value : UInt64) (front behind : Bytes) :
    Read.varint (Cursor.startAt (front ++ varint value.toNat ++ behind) front.length) =
      (.ok value, Cursor.startAt (front ++ varint value.toNat ++ behind)
        (front ++ varint value.toNat).length) := by
  have split : (front ++ varint value.toNat ++ behind).drop front.length =
      varint value.toNat ++ behind := by
    rw [List.append_assoc, List.drop_left]
  have read := readVarint_varint value.toNat_lt behind
  rw [← split] at read
  rw [read_varint_of_ok read, advanceTo_behind split, UInt64.ofNat_toNat, List.length_append]

theorem read_signedVarint_startAt (value : Int64) (front behind : Bytes) :
    Read.signedVarint (Cursor.startAt (front ++ signedVarint value ++ behind) front.length) =
      (.ok value, Cursor.startAt (front ++ signedVarint value ++ behind)
        (front ++ signedVarint value).length) := by
  have ran := read_varint_startAt (foldWord value) front behind
  rw [toNat_foldWord] at ran
  rw [Read.signedVarint, signedVarint, Action.bind_of_ok ran, toNat_foldWord, unfoldSign_foldSign]
  rfl

/-! ### Exactness -/

/-- Numbers of variable length are exact. What was written is read back from wherever it stands, and
it takes at most ten bytes. A reading at any offset succeeds exactly on a closed number of at most
ten bytes that a word holds, minimal or not, answers the sum of its digits and stops behind it; all
else is corruption. Signed numbers are read back as well. The loops over words agree: on no source
in memory do they stop, and shifting and joining of words never lose a digit. -/
theorem varints_exact :
    (∀ (value : UInt64) (front behind : Bytes),
      Read.varint (Cursor.startAt (front ++ varint value.toNat ++ behind) front.length) =
          (.ok value, Cursor.startAt (front ++ varint value.toNat ++ behind)
            (front ++ varint value.toNat).length) ∧
        (varint value.toNat).length ≤ 10) ∧
    (∀ (source : Bytes) (offset : Nat) (value : UInt64) (after : Cursor),
      Read.varint (Cursor.startAt source offset) = (.ok value, after) ↔
        ∃ number, NumberAt source offset number ∧ value.toNat = weigh number ∧
          after = Cursor.startAt source (offset + number.length)) ∧
    (∀ (source : Bytes) (offset : Nat), (¬ ∃ number, NumberAt source offset number) →
      ∃ damage, (Read.varint (Cursor.startAt source offset)).1 = .error (.corruption damage)) ∧
    (∀ (value : Int64) (front behind : Bytes),
      Read.signedVarint (Cursor.startAt (front ++ signedVarint value ++ behind) front.length) =
          (.ok value, Cursor.startAt (front ++ signedVarint value ++ behind)
            (front ++ signedVarint value).length) ∧
        (signedVarint value).length ≤ 10) ∧
    (∀ (source : Bytes) (offset : Nat), source.length < offsetLimit →
      ∃ outcome after, Indexed.varint source offset = some (outcome, after) ∧
        Read.varint (Cursor.startAt source offset) = (outcome, Cursor.startAt source after)) ∧
    (∀ value : UInt64, varintWord value = varint value.toNat) ∧
    (∀ value : Int64, (foldWord value).toNat = foldSign value) ∧
    (∀ folded : UInt64, unfoldWord folded = unfoldSign folded.toNat) := by
  refine ⟨fun value front behind => ⟨read_varint_startAt value front behind, ?short⟩,
    fun _ _ _ _ => read_varint_eq_ok, ?damaged,
    fun value front behind => ⟨read_signedVarint_startAt value front behind, ?signedShort⟩,
    fun _ offset inMemory => varint_eq_indexed inMemory offset, varintWord_eq, toNat_foldWord,
    unfoldWord_eq⟩
  case short => exact length_varint_le_ten value.toNat_lt
  case signedShort => exact length_varint_le_ten (foldSign_lt value)
  case damaged =>
    intro source offset noNumber
    rcases read : readVarint (Cursor.startAt source offset).rest with ⟨damage | total, behind⟩
    · exact ⟨damage, congrArg Prod.fst (read_varint_of_error read)⟩
    · obtain ⟨number, found, _⟩ := read_varint_eq_ok.1 (read_varint_of_ok read)
      exact absurd ⟨number, found⟩ noNumber

/-- A zero in two bytes is read, a number that the source breaks off is damage, and the least signed
number comes back. -/
theorem varints_exact_padded :
    NumberAt [7, 0x80, 0, 9] 1 [0x80, 0] ∧
      Read.varint (Cursor.startAt [7, 0x80, 0, 9] 1) =
        (.ok 0, Cursor.startAt [7, 0x80, 0, 9] (1 + 2)) ∧
      (∃ outcome after, Indexed.varint [7, 0x80, 0, 9] 1 = some (outcome, after) ∧
        Read.varint (Cursor.startAt [7, 0x80, 0, 9] 1) =
          (outcome, Cursor.startAt [7, 0x80, 0, 9] after)) ∧
      (¬ ∃ number, NumberAt [0x80] 0 number) ∧
      (∃ damage, (Read.varint (Cursor.startAt [0x80] 0)).1 = .error (.corruption damage)) ∧
      Read.signedVarint
          (Cursor.startAt ([7] ++ signedVarint Int64.minValue ++ [9]) [(7 : UInt8)].length) =
        (.ok Int64.minValue, Cursor.startAt ([7] ++ signedVarint Int64.minValue ++ [9])
          ([7] ++ signedVarint Int64.minValue).length) := by
  obtain ⟨_, accepts, damaged, signed, words, _⟩ := varints_exact
  have padded : NumberAt [7, 0x80, 0, 9] 1 [0x80, 0] :=
    ⟨⟨[9], rfl⟩, ⟨[0x80], 0, rfl, List.forall_mem_singleton.2 (by decide), by decide⟩, by decide,
      by decide⟩
  have broken : ¬ ∃ number, NumberAt [0x80] 0 number := by
    rintro ⟨number, found⟩
    have ran := (accepts [0x80] 0 (UInt64.ofNat (weigh number)) _).2
      ⟨number, found, UInt64.toNat_ofNat_of_lt' found.fits, rfl⟩
    exact nomatch (Prod.mk.inj ran).1
  exact ⟨padded, (accepts _ _ _ _).2 ⟨_, padded, rfl, rfl⟩, words _ _ (by decide), broken,
    damaged _ _ broken, (signed Int64.minValue [7] [9]).1⟩

end GraphStore.Encoding
