import GraphStore.Proofs.Bytes
import GraphStore.Scan.Scanner

/-!
Contract: the partitions of a scan lie side by side in its range.

Owns what it means that ranges are such partitions (`KeyRange.Tiles`): every key of the whole lies
in one of them, each lies within the whole, and no two share a key. Splitting a range always
succeeds and gives partitions of it (`KeyRange.split_tiles`), and what is left of a partition behind
one of its keys (`Scanner.resumeAfter`) holds exactly its keys behind that one.
-/

namespace GraphStore

/-! ### The order of byte strings -/

namespace Bytes

/-- There is no byte string between a byte string and the one with a zero behind it. -/
theorem not_lt_append_zero {key other : Bytes} : ¬ other < key ++ [0] ↔ key < other := by
  induction key generalizing other with
  | nil =>
      cases other with
      | nil => simp
      | cons byte other =>
          have notBelow : ¬ byte < 0 := UInt8.not_lt_zero
          simp [List.cons_lt_cons_iff, notBelow]
  | cons byte key inductionHypothesis =>
      cases other with
      | nil => simp
      | cons first other =>
          rw [List.cons_append, List.cons_lt_cons_iff, List.cons_lt_cons_iff, not_or, not_and,
            UInt8.not_lt, inductionHypothesis]
          constructor
          · intro both
            by_cases same : byte = first
            · exact Or.inr ⟨same, both.2 same.symm⟩
            · exact Or.inl (UInt8.lt_of_le_of_ne both.1 same)
          · intro either
            cases either with
            | inl less =>
                exact ⟨UInt8.le_of_lt less,
                  fun same => absurd (same ▸ less) (UInt8.lt_irrefl _)⟩
            | inr equal => exact ⟨UInt8.le_of_eq equal.1, fun _ => equal.2⟩

end Bytes

namespace KeyRange

/-- A range contains the keys from its start up to its stop. -/
theorem contains_iff {range : KeyRange} {key : Bytes} :
    range.contains key = true ↔
      ¬ key < range.start ∧ ∀ stop, range.stop = some stop → key < stop := by
  unfold contains below
  cases range.stop <;> simp

theorem contains_full (key : Bytes) : full.contains key = true :=
  contains_iff.2 ⟨List.not_lt_nil key, nofun⟩

theorem between_of_le {start stop : Bytes} (ordered : ¬ stop < start) :
    between start stop = .ok ⟨start, some stop⟩ := by
  unfold between
  rw [if_neg ordered]

theorem upTo_of_le {start : Bytes} {stop : Option Bytes}
    (ordered : ∀ bound, stop = some bound → ¬ bound < start) :
    upTo start stop = .ok ⟨start, stop⟩ := by
  cases stop with
  | none => rfl
  | some bound => exact between_of_le (ordered bound rfl)

/-! ### Partitions -/

/-- The parts are the whole, cut into pieces. -/
structure Tiles (whole : KeyRange) (parts : List KeyRange) : Prop where
  inside : ∀ part ∈ parts, ∀ key, part.contains key = true → whole.contains key = true
  covers : ∀ key, whole.contains key = true → ∃ part ∈ parts, part.contains key = true
  apart : parts.Pairwise fun left right =>
    ∀ key, left.contains key = true → right.contains key = false

theorem tiles_singleton (whole : KeyRange) : whole.Tiles [whole] where
  inside part member key inPart := by rwa [List.mem_singleton.1 member] at inPart
  covers key inWhole := ⟨whole, List.mem_singleton_self whole, inWhole⟩
  apart := List.pairwise_singleton _ _

/-- A cut inside a range puts the keys below it in front of the partitions of the others. -/
theorem Tiles.cons {start cut : Bytes} {stop : Option Bytes} {parts : List KeyRange}
    (tiles : Tiles ⟨cut, stop⟩ parts) (above : start < cut)
    (below : ∀ bound, stop = some bound → ¬ bound < cut) :
    Tiles ⟨start, stop⟩ (⟨start, some cut⟩ :: parts) := by
  have lower : ∀ key, contains ⟨start, some cut⟩ key = true ↔ ¬ key < start ∧ key < cut := by
    intro key
    rw [contains_iff]
    simp
  have within : ∀ bound, stop = some bound → ∀ key, key < cut → key < bound := by
    intro bound isStop key less
    by_cases same : bound = cut
    · exact same ▸ less
    · by_cases reached : cut < bound
      · exact Std.lt_trans less reached
      · exact absurd
          (Std.le_antisymm (Std.not_lt.1 reached) (Std.not_lt.1 (below bound isStop))) same
  refine ⟨?_, ?_, ?_⟩
  · intro part member key inPart
    cases List.mem_cons.1 member with
    | inl isFirst =>
        rw [isFirst, lower] at inPart
        exact contains_iff.2 ⟨inPart.1, fun bound isStop => within bound isStop key inPart.2⟩
    | inr later =>
        have inRest := contains_iff.1 (tiles.inside part later key inPart)
        refine contains_iff.2 ⟨?_, inRest.2⟩
        intro less
        exact inRest.1 (Std.lt_trans less above)
  · intro key inWhole
    obtain ⟨notBelow, bounded⟩ := contains_iff.1 inWhole
    by_cases less : key < cut
    · exact ⟨_, List.mem_cons_self, (lower key).2 ⟨notBelow, less⟩⟩
    · obtain ⟨part, member, inPart⟩ := tiles.covers key (contains_iff.2 ⟨less, bounded⟩)
      exact ⟨part, List.mem_cons_of_mem _ member, inPart⟩
  · apply List.pairwise_cons.2
    refine ⟨?_, tiles.apart⟩
    intro part member key inFirst
    apply Bool.eq_false_iff.2
    intro inPart
    have notBelow := (contains_iff.1 (tiles.inside part member key inPart)).1
    exact notBelow ((lower key).1 inFirst).2

theorem joinCuts_tiles {start : Bytes} {stop : Option Bytes} {cuts : List Bytes}
    (valid : ∀ bound, stop = some bound → ¬ bound < start)
    (ascending : (start :: cuts).Pairwise (· < ·))
    (below : ∀ cut ∈ cuts, ∀ bound, stop = some bound → cut < bound) :
    ∃ parts, joinCuts start stop cuts = .ok parts ∧ Tiles ⟨start, stop⟩ parts := by
  induction cuts generalizing start with
  | nil =>
      refine ⟨[⟨start, stop⟩], ?_, tiles_singleton _⟩
      rw [joinCuts, upTo_of_le valid]
      rfl
  | cons cut cuts inductionHypothesis =>
      obtain ⟨above, restAscending⟩ := List.pairwise_cons.1 ascending
      have isAbove : start < cut := above cut List.mem_cons_self
      have notBelow : ∀ bound, stop = some bound → ¬ bound < cut := by
        intro bound isStop less
        have greater := below cut List.mem_cons_self bound isStop
        exact Std.lt_irrefl (Std.lt_trans less greater)
      obtain ⟨parts, joined, tiles⟩ := inductionHypothesis notBelow restAscending
        fun other member => below other (List.mem_cons_of_mem _ member)
      have first : between start cut = .ok ⟨start, some cut⟩ := by
        apply between_of_le
        intro less
        exact Std.lt_irrefl (Std.lt_trans less isAbove)
      refine ⟨⟨start, some cut⟩ :: parts, ?_, tiles.cons isAbove notBelow⟩
      rw [joinCuts, first, joined]
      rfl

/-- Cuts ascend, and they lie strictly inside the range. -/
theorem cuts_ascending {range : KeyRange} {parts : Nat} (positive : 0 < range.stride parts) :
    (range.start :: range.cuts parts).Pairwise (· < ·) := by
  apply List.pairwise_cons.2
  constructor
  · intro cut member
    have kept := (List.mem_filter.1 member).2
    simp only [Bool.and_eq_true, decide_eq_true_eq] at kept
    exact kept.1
  · apply List.Pairwise.filter
    apply List.pairwise_map.2
    let number : Nat → Nat := fun index => leadingNumber range.start + range.stride parts * index
    have rising : ((List.range' 1 (parts - 1)).map number).Pairwise (· < ·) := by
      apply List.pairwise_map.2
      refine List.Pairwise.imp ?_ (List.pairwise_lt_range' 1)
      intro left right less
      have scaled := Nat.mul_lt_mul_of_pos_left less positive
      simp only [number]
      omega
    have front := rising.sublist (List.takeWhile_sublist (· < Word.count 64))
    refine List.Pairwise.imp_of_mem ?_ front
    intro low high _ highMember less
    have small : high < Word.count 64 := by
      have kept := List.all_eq_true.1 (List.all_takeWhile) high highMember
      simpa using kept
    exact Bytes.bigEndian_lt less (Nat.lt_of_lt_of_eq small rfl)

/-- Splitting a range succeeds, and gives partitions of it. -/
theorem split_tiles (range : KeyRange) (parts : Nat) :
    ∃ ranges, range.split parts = .ok ranges ∧ range.Tiles ranges := by
  unfold split
  split
  · exact ⟨[range], rfl, tiles_singleton range⟩
  · rename_i wide
    simp only [not_or] at wide
    obtain ⟨-, filled, narrow⟩ := wide
    apply joinCuts_tiles
    · intro bound isStop less
      unfold isEmpty at filled
      rw [isStop] at filled
      simp only [Bool.not_eq_true', Bool.not_eq_false] at filled
      have ordered : range.start < bound := by simpa using filled
      exact Std.lt_irrefl (Std.lt_trans less ordered)
    · exact cuts_ascending (Nat.pos_of_ne_zero narrow)
    · intro cut member bound isStop
      have kept := (List.mem_filter.1 member).2
      unfold below at kept
      rw [isStop] at kept
      simp only [Bool.and_eq_true, decide_eq_true_eq] at kept
      exact kept.2

end KeyRange

/-! ### What is left of a partition -/

/-- Behind one of its keys a range goes on, with exactly the keys that are greater. -/
theorem Scanner.resumeAfter_of_contains {range : KeyRange} {key : Bytes}
    (inside : range.contains key = true) :
    ∃ rest, resumeAfter range key = .ok rest ∧
      ∀ other, rest.contains other = true ↔ range.contains other = true ∧ key < other := by
  obtain ⟨notBelow, bounded⟩ := KeyRange.contains_iff.1 inside
  refine ⟨⟨key ++ [0], range.stop⟩, ?_, ?_⟩
  · apply KeyRange.upTo_of_le
    intro bound isStop less
    exact Bytes.not_lt_append_zero.2 (bounded bound isStop) less
  · intro other
    rw [KeyRange.contains_iff, KeyRange.contains_iff, Bytes.not_lt_append_zero]
    constructor
    · intro both
      refine ⟨⟨?_, both.2⟩, both.1⟩
      intro less
      exact notBelow (Std.lt_trans both.1 less)
    · intro both
      exact ⟨both.2, both.1.2⟩

end GraphStore
