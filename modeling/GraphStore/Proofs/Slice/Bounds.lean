import GraphStore.Slice

/-!
Contract: prefixes of byte strings as intervals of their order.

Owns the bounds by which slices are cut: a string lies below all strings of `FF` of some length
unless it begins with it (`Bytes.lt_ones_iff`), and the strings with a common stem are those from
the stem up to its prefix successor (`Bytes.isPrefix_iff_of_nextPrefix`). Slices of stems and of
whole rows are described by them in terms of the columns alone.
-/

namespace GraphStore

namespace Bytes

variable {stem bound bytes : Bytes}

/-! ### Strings of `FF` -/

theorem ones_succ (length : Nat) : ones (length + 1) = 255 :: ones length := rfl

@[simp] theorem length_ones (length : Nat) : (ones length).length = length :=
  List.length_replicate

theorem le_top (byte : UInt8) : byte < 255 ∨ byte = 255 := by
  have small : byte.toNat < 256 := byte.toNat_lt
  rw [UInt8.lt_iff_toNat_lt, ← UInt8.toNat_inj]
  change byte.toNat < 255 ∨ byte.toNat = 255
  omega

/-- The strings at or above a string of `FF` are those that begin with it. -/
theorem lt_ones_iff (length : Nat) : bytes < ones length ↔ ¬ ones length <+: bytes := by
  induction length generalizing bytes with
  | zero => simp [ones]
  | succ length inductionHypothesis =>
      cases bytes with
      | nil => simp [ones_succ]
      | cons byte bytes =>
          simp only [ones_succ, List.cons_lt_cons_iff, List.cons_prefix_cons, inductionHypothesis]
          rcases le_top byte with lower | rfl
          · have apart : ¬ 255 = byte := fun same => absurd lower (same ▸ UInt8.lt_irrefl _)
            simp [lower, apart]
          · simp [UInt8.lt_irrefl]

/-- A string that is shorter than one of greatest bytes lies below it. -/
theorem lt_ones_of_length {length : Nat} (shorter : bytes.length < length) :
    bytes < ones length := by
  rw [lt_ones_iff]
  intro front
  have bounded := front.length_le
  rw [length_ones] at bounded
  omega

/-! ### The prefix successor -/

/-- There is no successor just for strings of the greatest byte. -/
theorem nextPrefix_eq_none : nextPrefix stem = none ↔ stem = ones stem.length := by
  induction stem with
  | nil => simp [nextPrefix, ones]
  | cons byte stem inductionHypothesis =>
      rw [nextPrefix, List.length_cons, ones_succ, List.cons.injEq, ← inductionHypothesis]
      cases nextPrefix stem with
      | some bound => simp
      | none => by_cases top : byte = 255 <;> simp [top]

theorem nextPrefix_eq_none_iff_forall : nextPrefix stem = none ↔ ∀ byte ∈ stem, byte = 255 := by
  rw [nextPrefix_eq_none, ones, List.eq_replicate_iff]
  simp

theorem lt_raised_iff {byte other : UInt8} (below : byte ≠ 255) :
    other < byte + 1 ↔ other < byte ∨ other = byte := by
  have small : byte.toNat < 255 := by
    rcases le_top byte with lower | same
    · exact UInt8.lt_iff_toNat_lt.1 lower
    · exact absurd same below
  have raised : (byte + 1).toNat = byte.toNat + 1 := by
    rw [UInt8.toNat_add]
    change (byte.toNat + 1) % 256 = _
    omega
  rw [UInt8.lt_iff_toNat_lt, UInt8.lt_iff_toNat_lt, ← UInt8.toNat_inj, raised]
  omega

/-- The strings that begin with a stem are those from the stem up to its prefix successor. -/
theorem isPrefix_iff_of_nextPrefix (next : nextPrefix stem = some bound) :
    stem <+: bytes ↔ ¬ bytes < stem ∧ bytes < bound := by
  induction stem generalizing bound bytes with
  | nil => exact nomatch next
  | cons byte stem inductionHypothesis =>
      rw [nextPrefix] at next
      cases bytes with
      | nil => simp
      | cons other bytes =>
          cases tail : nextPrefix stem with
          | some behind =>
              rw [tail] at next
              obtain rfl := Option.some.inj next
              have inner : stem <+: bytes ↔ ¬ bytes < stem ∧ bytes < behind :=
                inductionHypothesis tail
              simp only [List.cons_prefix_cons, List.cons_lt_cons_iff, inner]
              by_cases same : other = byte
              · simp [same, UInt8.lt_irrefl]
              · simp [same, Ne.symm same]
          | none =>
              by_cases top : byte = 255
              · simp [tail, top] at next
              · obtain rfl : [byte + 1] = bound := by simpa [tail, top] using next
                -- The rest of the stem is all `FF`, so that it is a bound of its own.
                have rest : stem <+: bytes ↔ ¬ bytes < stem := by
                  rw [nextPrefix_eq_none.1 tail, lt_ones_iff, Decidable.not_not]
                simp only [List.cons_prefix_cons, List.cons_lt_cons_iff, lt_raised_iff top, rest]
                by_cases same : other = byte
                · simp [same, UInt8.lt_irrefl]
                · simp [same, Ne.symm same]

/-- A stem of `FF` only, and a string that goes on behind it with 128 bytes `FF` or more. No slice
of the stem reaches so far. -/
def Outgrows (bytes stem : Bytes) : Prop :=
  (∀ byte ∈ stem, byte = 255) ∧ ones (stem.length + 128) <+: bytes

instance (bytes stem : Bytes) : Decidable (bytes.Outgrows stem) :=
  have : Decidable (∀ byte ∈ stem, byte = 255) := List.decidableBAll _ stem
  inferInstanceAs (Decidable ((∀ byte ∈ stem, byte = 255) ∧
    ones (stem.length + 128) <+: bytes))

end Bytes

namespace Slice

open Bytes

variable {stem column : Bytes}

/-- A slice contains the columns from its start up to its stop. -/
theorem contains_iff {slice : Slice} :
    slice.contains column = true ↔ ¬ column < slice.start ∧ column < slice.stop := by
  simp [contains]

/-- The slice of a stem holds the columns that begin with it, but for those that outgrow it. -/
theorem contains_ofPrefix :
    (ofPrefix stem).contains column = true ↔ stem <+: column ∧ ¬ column.Outgrows stem := by
  rw [contains_iff, ofPrefix]
  cases next : nextPrefix stem with
  | some bound =>
      have reached : ¬ column.Outgrows stem := by
        intro outgrown
        rw [nextPrefix_eq_none_iff_forall.2 outgrown.1] at next
        exact nomatch next
      rw [Option.getD_some, ← isPrefix_iff_of_nextPrefix next]
      exact (and_iff_left reached).symm
  | none =>
      have whole := nextPrefix_eq_none_iff_forall.1 next
      have begins : stem <+: column ↔ ¬ column < stem := by
        rw [nextPrefix_eq_none.1 next, lt_ones_iff, Decidable.not_not]
      rw [Option.getD_none, lt_ones_iff, ← begins, Outgrows, and_iff_right whole]

/-- The slice for whole rows leaves out the empty column, and those from 128 bytes `FF` on. -/
theorem contains_fullRow :
    fullRow.contains column = true ↔ column ≠ [] ∧ ¬ ones 128 <+: column := by
  have notBefore : ¬ column < zeros 1 ↔ column ≠ [] := by
    cases column with
    | nil => simp [zeros]
    | cons byte column => simp [zeros, List.cons_lt_cons_iff]
  rw [contains_iff, fullRow, notBefore, lt_ones_iff]

end Slice

end GraphStore
