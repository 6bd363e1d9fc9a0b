import GraphStore.Proofs.Results
import GraphStore.Proofs.Scan.Partitions
import Mathlib.Data.List.TakeWhile

/-!
Contract: the pieces a key range is cut into.

Owns the order of keys by the numbers their first bytes spell
(`KeyRange.lt_of_leadingNumber_lt`), and what the pieces of a range are (`KeyRange.SplitsInto`):
they meet at their bounds, every key of the range is in one of them, and the wanted number of them
is reached wherever the leading numbers of the bounds are that far apart.
-/

namespace GraphStore

/-! ### Leading bytes -/

namespace Bytes

/-- The first bytes of a key, zeros standing in for missing ones. -/
def leading (width : Nat) (key : Bytes) : Bytes := key.take width ++ zeros (width - key.length)

@[simp] theorem length_leading (width : Nat) (key : Bytes) :
    (leading width key).length = width := by
  simp only [leading, zeros, List.length_append, List.length_take, List.length_replicate]
  omega

theorem leading_nil (width : Nat) : leading (width + 1) [] = 0 :: leading width [] := by
  simp [leading, zeros, List.replicate_succ]

theorem leading_cons (width : Nat) (byte : UInt8) (key : Bytes) :
    leading (width + 1) (byte :: key) = byte :: leading width key := by
  simp [leading]

/-- Keys are ordered as their leading bytes, where these differ. A zero that stands in for a
missing byte is never above the byte it is compared with. -/
theorem lt_of_leading_lt {width : Nat} {left right : Bytes}
    (less : leading width left < leading width right) : left < right := by
  induction width generalizing left right with
  | zero => simp [leading, zeros] at less
  | succ width inductionHypothesis =>
      cases left with
      | nil =>
          cases right with
          | nil => exact absurd less (List.lt_irrefl _)
          | cons byte right => exact List.nil_lt_cons byte right
      | cons byte left =>
          cases right with
          | nil =>
              rw [leading_cons, leading_nil, List.cons_lt_cons_iff] at less
              rcases less with lower | ⟨-, less⟩
              · exact absurd lower UInt8.not_lt_zero
              · exact absurd (inductionHypothesis less) (List.not_lt_nil left)
          | cons other right =>
              rw [leading_cons, leading_cons, List.cons_lt_cons_iff] at less
              exact List.cons_lt_cons_iff.2 (less.imp_right (And.imp_right inductionHypothesis))

end Bytes

namespace KeyRange

theorem leadingNumber_lt (key : Bytes) : leadingNumber key < Word.count 64 := by
  have bound := Bytes.toNat_lt_weight (Bytes.leading 8 key)
  rwa [Bytes.length_leading] at bound

/-- Strings are ordered as their leading numbers where these differ. -/
theorem lt_of_leadingNumber_lt {left right : Bytes}
    (less : leadingNumber left < leadingNumber right) : left < right := by
  have lengths : (Bytes.leading 8 left).length = (Bytes.leading 8 right).length := by simp
  exact Bytes.lt_of_leading_lt (Bytes.lt_of_toNat_lt lengths less)

/-- The key that is cut at for a number starts with it. -/
theorem leadingNumber_bigEndian {number : Nat} (fits : number < Word.count 64) :
    leadingNumber (Bytes.bigEndian 8 number) = number := by
  have whole : leadingNumber (Bytes.bigEndian 8 number) =
      Bytes.toNat (Bytes.bigEndian 8 number) := by
    rw [leadingNumber, Bytes.length_bigEndian, List.take_of_length_le (by simp), Nat.sub_self]
    exact congrArg Bytes.toNat (List.append_nil _)
  rw [whole, Bytes.toNat_bigEndian_of_lt fits]

theorem stopNumber_le (range : KeyRange) : range.stopNumber ≤ Word.count 64 := by
  unfold stopNumber
  split
  · exact Nat.le_of_lt (leadingNumber_lt _)
  · exact Nat.le_refl _

variable {range part : KeyRange} {ranges : List KeyRange} {parts number : Nat} {key : Bytes}

/-- A number between those of the bounds stands for a key strictly inside the range. -/
theorem inside_of_number (above : leadingNumber range.start < number)
    (below : number < range.stopNumber) :
    range.start < Bytes.bigEndian 8 number ∧ range.below (Bytes.bigEndian 8 number) = true := by
  have fits := Nat.lt_of_lt_of_le below range.stopNumber_le
  rw [← leadingNumber_bigEndian fits] at above below
  refine ⟨lt_of_leadingNumber_lt above, ?_⟩
  unfold KeyRange.below
  unfold stopNumber at below
  cases bounded : range.stop with
  | none => rfl
  | some stop =>
      rw [bounded] at below
      exact decide_eq_true (lt_of_leadingNumber_lt below)

/-! ### Emptiness -/

theorem contains_start (filled : range.isEmpty = false) : range.contains range.start = true := by
  refine contains_iff.2 ⟨List.lt_irrefl _, ?_⟩
  intro stop bounded
  unfold isEmpty at filled
  rw [bounded] at filled
  simpa using filled

theorem isEmpty_of_leadingNumber (wide : leadingNumber range.start < range.stopNumber) :
    range.isEmpty = false := by
  unfold stopNumber at wide
  unfold isEmpty
  cases isStop : range.stop with
  | none => rfl
  | some stop =>
      rw [isStop] at wide
      simpa using lt_of_leadingNumber_lt wide

theorem isEmpty_of_below (below : range.below key = true) : isEmpty ⟨key, range.stop⟩ = false := by
  unfold KeyRange.below at below
  unfold isEmpty
  cases isStop : range.stop with
  | none => rfl
  | some stop => simpa [isStop] using below

/-! ### The number of cuts -/

theorem length_cuts_le (range : KeyRange) (parts : Nat) :
    (range.cuts parts).length ≤ parts - 1 := by
  have kept := (List.takeWhile_sublist (· < Word.count 64)
    (l := (List.range' 1 (parts - 1)).map
      fun index => leadingNumber range.start + range.stride parts * index)).length_le
  refine Nat.le_trans (List.length_filter_le _ _) ?_
  simpa using kept

/-- Every candidate cuts a range whose bounds are at least one stride for each part apart. -/
theorem length_cuts (wide : leadingNumber range.start + parts ≤ range.stopNumber)
    (several : 2 ≤ parts) : (range.cuts parts).length = parts - 1 := by
  have scaled : range.stride parts * parts ≤ range.stopNumber - leadingNumber range.start :=
    Nat.div_mul_le_self _ _
  have positive : 0 < range.stride parts := Nat.div_pos (by omega) (by omega)
  have between : ∀ number ∈ (List.range' 1 (parts - 1)).map
      (fun index => leadingNumber range.start + range.stride parts * index),
      leadingNumber range.start < number ∧ number < range.stopNumber := by
    intro number listed
    obtain ⟨index, inside, rfl⟩ := List.mem_map.1 listed
    rw [List.mem_range'_1] at inside
    have first : 0 < range.stride parts * index := Nat.mul_pos positive (by omega)
    have last : range.stride parts * index < range.stride parts * parts :=
      Nat.mul_lt_mul_of_pos_left (by omega) positive
    omega
  have allFit := List.takeWhile_eq_self_iff.2 fun number listed =>
    decide_eq_true (Nat.lt_of_lt_of_le (between number listed).2 range.stopNumber_le)
  have allInside : ∀ cut ∈ ((List.range' 1 (parts - 1)).map fun index =>
      leadingNumber range.start + range.stride parts * index).map (Bytes.bigEndian 8),
      (range.start < cut && range.below cut) = true := by
    intro cut listed
    obtain ⟨number, candidate, rfl⟩ := List.mem_map.1 listed
    obtain ⟨above, below⟩ := between number candidate
    obtain ⟨greater, notReached⟩ := inside_of_number above below
    rw [notReached, Bool.and_true]
    exact decide_eq_true greater
  unfold cuts
  simp only [allFit, List.filter_eq_self.2 allInside, List.length_map, List.length_range']

/-! ### Neighbouring pieces -/

theorem eq_of_between {start stop : Bytes} (made : between start stop = .ok part) :
    part = ⟨start, some stop⟩ := by
  unfold between at made
  split at made
  · exact nomatch made
  · exact (Except.ok.inj made).symm

theorem eq_of_upTo {start : Bytes} {stop : Option Bytes} (made : upTo start stop = .ok part) :
    part = ⟨start, stop⟩ := by
  cases stop with
  | none => exact (Except.ok.inj made).symm
  | some stop => exact eq_of_between made

/-- Pieces from a start up to a stop: each one is inhabited and ends where the next one starts. -/
inductive Pieces (stop : Option Bytes) : Bytes → List KeyRange → Prop
  | last {start : Bytes} (filled : isEmpty ⟨start, stop⟩ = false) :
      Pieces stop start [⟨start, stop⟩]
  | cons {start cut : Bytes} {ranges : List KeyRange} (above : start < cut)
      (behind : Pieces stop cut ranges) : Pieces stop start (⟨start, some cut⟩ :: ranges)

namespace Pieces

variable {start : Bytes} {stop : Option Bytes}

theorem first (pieces : Pieces stop start ranges) :
    ranges.head?.map KeyRange.start = some start := by
  cases pieces <;> rfl

theorem last_stop (pieces : Pieces stop start ranges) :
    ranges.getLast?.map KeyRange.stop = some stop := by
  induction pieces with
  | last filled => rfl
  | cons above behind inductionHypothesis => cases behind <;> exact inductionHypothesis

theorem adjacent (pieces : Pieces stop start ranges) :
    ranges.IsChain fun left right => left.stop = some right.start := by
  induction pieces with
  | last filled => exact .singleton _
  | cons above behind inductionHypothesis =>
      cases behind with
      | last filled => exact .cons_cons rfl (.singleton _)
      | cons _ _ => exact .cons_cons rfl inductionHypothesis

/-- No piece is empty. -/
theorem filled (pieces : Pieces stop start ranges) (member : part ∈ ranges) :
    part.isEmpty = false := by
  induction pieces with
  | last filled =>
      obtain rfl := List.mem_singleton.1 member
      exact filled
  | cons above behind inductionHypothesis =>
      rcases List.mem_cons.1 member with rfl | later
      · simpa [isEmpty] using above
      · exact inductionHypothesis later

theorem of_joinCuts {cuts : List Bytes} (joined : joinCuts start stop cuts = .ok ranges)
    (filled : isEmpty ⟨start, stop⟩ = false) (ascending : (start :: cuts).Pairwise (· < ·))
    (below : ∀ cut ∈ cuts, KeyRange.below ⟨start, stop⟩ cut = true) :
    Pieces stop start ranges ∧ ranges.length = cuts.length + 1 := by
  induction cuts generalizing start ranges with
  | nil =>
      obtain ⟨only, made, answered⟩ := Result.bind_eq_ok.1 joined
      obtain rfl := Except.ok.inj answered
      obtain rfl := eq_of_upTo made
      exact ⟨.last filled, rfl⟩
  | cons cut cuts inductionHypothesis =>
      obtain ⟨first, made, joined⟩ := Result.bind_eq_ok.1 joined
      obtain ⟨others, behind, answered⟩ := Result.bind_eq_ok.1 joined
      obtain rfl := Except.ok.inj answered
      obtain rfl := eq_of_between made
      obtain ⟨above, ascending⟩ := List.pairwise_cons.1 ascending
      have rest := isEmpty_of_below (below cut List.mem_cons_self)
      obtain ⟨pieces, length⟩ := inductionHypothesis behind rest ascending
        fun other listed => below other (List.mem_cons_of_mem _ listed)
      refine ⟨.cons (above cut List.mem_cons_self) pieces, ?_⟩
      rw [List.length_cons, List.length_cons, length]

end Pieces

/-! ### Splitting -/

/-- Of the pieces of a range one holds a key of the range, and none another key. -/
theorem Tiles.countP_contains (tiles : range.Tiles ranges) (key : Bytes) :
    ranges.countP (·.contains key) = if range.contains key = true then 1 else 0 := by
  split
  · rename_i inside
    obtain ⟨part, member, holds⟩ := tiles.covers key inside
    obtain ⟨front, behind, rfl⟩ := List.append_of_mem member
    obtain ⟨-, apartBehind, apartFront⟩ := List.pairwise_append.1 tiles.apart
    have noneInFront : front.countP (·.contains key) = 0 := by
      refine List.countP_eq_zero.2 fun other listed contrary => ?_
      have apart := apartFront other listed part List.mem_cons_self key contrary
      exact Bool.false_ne_true (apart.symm.trans holds)
    have noneBehind : behind.countP (·.contains key) = 0 := by
      refine List.countP_eq_zero.2 fun other listed contrary => ?_
      have apart := (List.pairwise_cons.1 apartBehind).1 other listed key holds
      exact Bool.false_ne_true (apart.symm.trans contrary)
    rw [List.countP_append, List.countP_cons, noneInFront, noneBehind, if_pos holds]
  · rename_i outside
    exact List.countP_eq_zero.2 fun part member holds =>
      outside (tiles.inside part member key holds)

/-- What a range is cut into, for a wanted number of pieces. -/
structure SplitsInto (range : KeyRange) (parts : Nat) (ranges : List KeyRange) : Prop where
  nonempty : ranges ≠ []
  atMost : ranges.length ≤ max 1 parts
  first : ranges.head?.map KeyRange.start = some range.start
  last : ranges.getLast?.map KeyRange.stop = some range.stop
  adjacent : ranges.IsChain fun left right => left.stop = some right.start
  once : ∀ key, ranges.countP (·.contains key) = if range.contains key = true then 1 else 0
  inhabited : (∃ key, range.contains key = true) →
    ∀ part ∈ ranges, ∃ key, part.contains key = true
  reached : 2 ≤ parts → leadingNumber range.start + parts ≤ range.stopNumber →
    ranges.length = parts

/-- A range that is not split has no room for the wanted number of pieces. -/
theorem splitsInto_singleton (whole : parts ≤ 1 ∨ range.isEmpty ∨ range.stride parts = 0) :
    range.SplitsInto parts [range] where
  nonempty := List.cons_ne_nil _ _
  atMost := Nat.le_max_left 1 parts
  first := rfl
  last := rfl
  adjacent := .singleton range
  once := (tiles_singleton range).countP_contains
  inhabited filled part member := by rwa [List.mem_singleton.1 member]
  reached several wide := by
    rcases whole with single | nothing | narrow
    · omega
    · have filled : range.isEmpty = false := isEmpty_of_leadingNumber (by omega)
      exact nomatch filled.symm.trans nothing
    · have positive : 0 < range.stride parts := Nat.div_pos (by omega) (by omega)
      omega

theorem splitsInto_of_joinCuts (several : ¬ parts ≤ 1) (filled : range.isEmpty = false)
    (positive : 0 < range.stride parts)
    (joined : joinCuts range.start range.stop (range.cuts parts) = .ok ranges)
    (tiles : range.Tiles ranges) : range.SplitsInto parts ranges := by
  have below : ∀ cut ∈ range.cuts parts, range.below cut = true := by
    intro cut listed
    have kept := (List.mem_filter.1 listed).2
    exact (Bool.and_eq_true _ _ ▸ kept).2
  obtain ⟨pieces, length⟩ := Pieces.of_joinCuts joined filled (cuts_ascending positive) below
  have bound := range.length_cuts_le parts
  refine ⟨?_, ?_, pieces.first, pieces.last_stop, pieces.adjacent, tiles.countP_contains, ?_, ?_⟩
  · exact List.ne_nil_of_length_pos (by omega)
  · omega
  · exact fun _ part member => ⟨part.start, contains_start (pieces.filled member)⟩
  · intro severalWanted wide
    rw [length, length_cuts wide severalWanted]
    omega

/-- Splitting succeeds for every range and every number of parts. -/
theorem split_splitsInto (range : KeyRange) (parts : Nat) :
    ∃ ranges, range.split parts = .ok ranges ∧ range.SplitsInto parts ranges := by
  obtain ⟨ranges, splits, tiles⟩ := split_tiles range parts
  refine ⟨ranges, splits, ?_⟩
  unfold split at splits
  split at splits
  · rename_i whole
    obtain rfl := Except.ok.inj splits
    exact splitsInto_singleton whole
  · rename_i cut
    simp only [not_or, Bool.not_eq_true] at cut
    obtain ⟨several, filled, narrow⟩ := cut
    exact splitsInto_of_joinCuts several filled (Nat.pos_of_ne_zero narrow) splits tiles

end KeyRange

end GraphStore
