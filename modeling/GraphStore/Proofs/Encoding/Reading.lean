import GraphStore.Encoding.Cursor
import GraphStore.Proofs.Action

/-!
Contract: reading steps against what was written.

Owns `Read.Takes`: a step takes a byte string if in front of any further bytes it answers
one value and moves the cursor exactly behind the string. Steps in sequence take the strings
in sequence (`Takes.bind`), so what a whole reader takes is composed from its fields.
Variable-length numbers are taken up to the width of a word.
-/

namespace GraphStore.Encoding

/-- In front of any bytes behind it, the step takes exactly `written` and answers `value`.
Offsets stay below the limit that readers check. -/
def Read.Takes {α : Type} (step : Read α) (written : Bytes) (value : α) : Prop :=
  ∀ (offset : Nat) (rest : Bytes), offset + written.length < offsetLimit →
    step ⟨offset, written ++ rest⟩ = (.ok value, ⟨offset + written.length, rest⟩)

/-- At the end of a source the step takes exactly `written` and answers `value`. -/
def Read.TakesAll {α : Type} (step : Read α) (written : Bytes) (value : α) : Prop :=
  ∀ offset : Nat, offset + written.length < offsetLimit →
    step ⟨offset, written⟩ = (.ok value, ⟨offset + written.length, []⟩)

namespace Read.Takes

variable {α β : Type}

theorem pure (value : α) : Takes (Pure.pure value) [] value := by
  intro offset rest _
  rfl

/-- Steps in sequence take what they take one behind the other. -/
theorem bind {first : Read α} {next : α → Read β} {front back : Bytes} {value : α} {result : β}
    (takesFront : first.Takes front value) (takesBack : (next value).Takes back result) :
    Takes (first >>= next) (front ++ back) result := by
  intro offset rest within
  rw [List.length_append] at within ⊢
  have atFront := takesFront offset (back ++ rest) (by omega)
  have atBack := takesBack (offset + front.length) rest (by omega)
  rw [List.append_assoc, Action.bind_of_ok atFront, atBack, Nat.add_assoc]

/-- A step that a function of the answer follows. -/
theorem map {first : Read α} {front : Bytes} {value : α} (takes : first.Takes front value)
    (change : α → β) : Takes (first >>= fun answer => Pure.pure (change answer)) front
      (change value) := by
  have composed : Takes (first >>= fun answer => Pure.pure (change answer)) (front ++ [])
      (change value) :=
    takes.bind (pure (change value))
  rwa [List.append_nil] at composed

theorem mapped {first : Read α} {front : Bytes} {value : α} (takes : first.Takes front value)
    (change : α → β) : Takes (change <$> first) front (change value) := by
  rw [← bind_pure_comp]
  exact takes.map change

/-- A step that takes its string anywhere, followed by one that takes the end of the source. -/
theorem bindAll {first : Read α} {next : α → Read β} {front back : Bytes} {value : α}
    {result : β} (takesFront : first.Takes front value)
    (takesBack : (next value).TakesAll back result) :
    TakesAll (first >>= next) (front ++ back) result := by
  intro offset within
  rw [List.length_append] at within ⊢
  have atFront := takesFront offset back (by omega)
  have atBack := takesBack (offset + front.length) (by omega)
  rw [Action.bind_of_ok atFront, atBack, Nat.add_assoc]

end Read.Takes

theorem takes_take (content : Bytes) : (Read.take content.length).Takes content content := by
  intro offset rest within
  have enough : ¬ (content ++ rest).length < content.length := by
    rw [List.length_append]
    omega
  rw [Read.take, Cursor.remaining, if_neg (Nat.not_le.2 within), if_neg enough, List.take_left,
    List.drop_left]

theorem takesAll_finish (damage : Nat → Damage) {α : Type} (value : α) :
    (Read.finish damage >>= fun _ => pure value : Read α).TakesAll [] value := by
  intro offset _
  rfl

/-! ### Numbers of variable length -/

/-- The highest number that `left + 1` digits can be read as, plus one: the last of ten
digits has a single bit. -/
theorem readVarintFrom_varint (left index value : Nat) (rest : Bytes)
    (fits : value < 2 * Nat.pow 128 left) :
    readVarintFrom (left + 1) index (varint value ++ rest) = (.ok value, rest) := by
  induction left generalizing index value with
  | zero =>
      have bit : value < 2 := by simpa using fits
      have byte : (UInt8.ofNat value).toNat = value := by
        rw [UInt8.toNat_ofNat']
        omega
      rw [varint, if_pos (by omega), List.cons_append, List.nil_append, readVarintFrom]
      simp only [byte]
      rw [if_neg (by omega), if_pos (by omega), Nat.mod_eq_of_lt (by omega)]
  | succ left inductionHypothesis =>
      rw [varint]
      by_cases small : value < 128
      · have byte : (UInt8.ofNat value).toNat = value := by
          rw [UInt8.toNat_ofNat']
          omega
        rw [if_pos small, List.cons_append, List.nil_append, readVarintFrom]
        simp only [byte]
        rw [if_neg (by omega), if_pos small, Nat.mod_eq_of_lt small]
      · have byte : (UInt8.ofNat (value % 128 + 128)).toNat = value % 128 + 128 := by
          rw [UInt8.toNat_ofNat']
          omega
        have higher : value / 128 < 2 * Nat.pow 128 left := by
          have weight : Nat.pow 128 (left + 1) = Nat.pow 128 left * 128 := rfl
          omega
        rw [if_neg small, List.cons_append, readVarintFrom]
        simp only [byte]
        rw [if_neg (by omega), if_neg (by omega), inductionHypothesis (index + 1) _ higher]
        have digits : (value % 128 + 128) % 128 + 128 * (value / 128) = value := by omega
        simp only [digits]

/-- Reading stops right behind the digits that were written. -/
theorem readVarint_varint {value : Nat} (fits : value < Word.count 64) (rest : Bytes) :
    readVarint (varint value ++ rest) = (.ok value, rest) :=
  readVarintFrom_varint 9 0 value rest fits

/-- The digits of a number within a word are read as the number. -/
theorem takes_varint {value : Nat} (fits : value < Word.count 64) :
    Read.varint.Takes (varint value) (UInt64.ofNat value) := by
  intro offset rest _
  rw [Read.varint, readVarint_varint fits rest]
  simp [Cursor.advanceTo]

theorem varint_ne_nil (value : Nat) : varint value ≠ [] := by
  rw [varint]
  split <;> exact List.cons_ne_nil _ _

end GraphStore.Encoding
