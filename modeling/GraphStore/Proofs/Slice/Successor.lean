import GraphStore.Proofs.Slice.Bounds

/-!
Contract: the prefix successor as a least bound.

The strings that begin with a stem have no greatest one among them, and only a string above all of
them ends their range (`Bytes.Tops`). Owns the shape of the prefix successor, which is the stem cut
behind its last byte below `FF` with that byte raised (`Bytes.nextPrefix_eq_some`), and the proof
that it is the least string above them all, and that there is none where it is missing
(`Bytes.nextPrefix_least`).
-/

namespace GraphStore.Bytes

variable {stem bound other : Bytes}

/-- The string lies above all that begin with the stem. -/
def Tops (bound stem : Bytes) : Prop := ∀ bytes, stem <+: bytes → bytes < bound

/-! ### The shape -/

theorem nextPrefix_ones (length : Nat) : nextPrefix (ones length) = none := by
  rw [nextPrefix_eq_none, length_ones]

/-- Bytes `FF` at the end are dropped, and the last byte in front of them is raised. -/
theorem nextPrefix_eq_some : nextPrefix stem = some bound ↔ ∃ front byte count,
    stem = front ++ byte :: ones count ∧ byte ≠ 255 ∧ bound = front ++ [byte + 1] := by
  constructor
  · intro next
    induction stem generalizing bound with
    | nil => cases next
    | cons first stem inductionHypothesis =>
        rw [nextPrefix] at next
        cases tail : nextPrefix stem with
        | some behind =>
            rw [tail] at next
            obtain rfl := Option.some.inj next
            obtain ⟨front, byte, count, rfl, below, rfl⟩ := inductionHypothesis tail
            exact ⟨first :: front, byte, count, rfl, below, rfl⟩
        | none =>
            rw [tail] at next
            by_cases top : first = 255
            · rw [if_pos top] at next
              cases next
            · rw [if_neg top] at next
              obtain rfl := Option.some.inj next
              exact ⟨[], first, stem.length, congrArg (first :: ·) (nextPrefix_eq_none.1 tail), top,
                rfl⟩
  · rintro ⟨front, byte, count, rfl, below, rfl⟩
    induction front with
    | nil =>
        rw [List.nil_append, nextPrefix, nextPrefix_ones]
        exact if_neg below
    | cons first front inductionHypothesis =>
        rw [List.cons_append, nextPrefix, inductionHypothesis]
        rfl

/-! ### The least bound -/

theorem tops_of_nextPrefix (next : nextPrefix stem = some bound) : bound.Tops stem :=
  fun _ front => ((isPrefix_iff_of_nextPrefix next).1 front).2

/-- What lies from the stem up to its successor begins with the stem and tops nothing. -/
theorem le_of_tops (next : nextPrefix stem = some bound) (tops : other.Tops stem) :
    bound ≤ other := by
  intro lower
  have above : ¬ other < stem := List.lt_asymm (tops stem (List.prefix_refl stem))
  have front : stem <+: other := (isPrefix_iff_of_nextPrefix next).2 ⟨above, lower⟩
  exact List.lt_irrefl other (tops other front)

/-- A stem of `FF` goes on with `FF` beyond every string. -/
theorem exists_not_lt (next : nextPrefix stem = none) (bound : Bytes) :
    ∃ bytes, stem <+: bytes ∧ ¬ bytes < bound := by
  refine ⟨stem ++ ones (bound.length + 1), List.prefix_append _ _, ?_⟩
  have whole : stem ++ ones (bound.length + 1) = ones (stem.length + (bound.length + 1)) :=
    calc stem ++ ones (bound.length + 1)
        = ones stem.length ++ ones (bound.length + 1) :=
          congrArg (· ++ ones (bound.length + 1)) (nextPrefix_eq_none.1 next)
      _ = ones (stem.length + (bound.length + 1)) := List.replicate_append_replicate
  rw [whole]
  exact List.lt_asymm (lt_ones_of_length (by omega))

/-- The prefix successor is the least string above all that begin with the stem, and there is none
if and only if no string is above them all: for each one there is another that begins with the stem
and is not below it. The carry passes over bytes `FF` at the end and drops them. -/
theorem nextPrefix_least (stem : Bytes) :
    (∀ bound : Bytes, nextPrefix stem = some bound ↔
      bound.Tops stem ∧ ∀ other : Bytes, other.Tops stem → bound ≤ other) ∧
    (nextPrefix stem = none ↔ ∀ bound : Bytes, ∃ bytes, stem <+: bytes ∧ ¬ bytes < bound) ∧
    ∀ bound : Bytes, nextPrefix stem = some bound ↔ ∃ front byte count,
      stem = front ++ byte :: ones count ∧ byte ≠ 255 ∧ bound = front ++ [byte + 1] := by
  refine ⟨fun bound => ⟨?least, ?only⟩, ⟨exists_not_lt, ?unbounded⟩, fun _ => nextPrefix_eq_some⟩
  case least => exact fun next => ⟨tops_of_nextPrefix next, fun _ => le_of_tops next⟩
  case only =>
    rintro ⟨tops, least⟩
    cases next : nextPrefix stem with
    | none =>
        obtain ⟨bytes, front, reached⟩ := exists_not_lt next bound
        exact absurd (tops bytes front) reached
    | some found =>
        exact congrArg some (List.le_antisymm (le_of_tops next tops)
          (least found (tops_of_nextPrefix next)))
  case unbounded =>
    intro reaches
    cases next : nextPrefix stem with
    | none => rfl
    | some bound =>
        obtain ⟨bytes, front, reached⟩ := reaches bound
        exact absurd (tops_of_nextPrefix next bytes front) reached

/-- The carry passes over two bytes and shortens the string; two bytes `FF` have no bound. -/
theorem nextPrefix_least_carry :
    nextPrefix [1, 255, 255] = some [2] ∧ Tops [2] [1, 255, 255] ∧
      (∀ other : Bytes, other.Tops [1, 255, 255] → [2] ≤ other) ∧
      nextPrefix [255, 255] = none ∧
      ∀ bound : Bytes, ∃ bytes, [255, 255] <+: bytes ∧ ¬ bytes < bound := by
  have next : nextPrefix [1, 255, 255] = some [2] := by decide
  have none : nextPrefix [255, 255] = none := by decide
  obtain ⟨tops, least⟩ := ((nextPrefix_least [1, 255, 255]).1 [2]).1 next
  exact ⟨next, tops, least, none, (nextPrefix_least [255, 255]).2.1.1 none⟩

end GraphStore.Bytes
