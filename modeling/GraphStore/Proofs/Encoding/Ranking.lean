import GraphStore.Encoding.Ordered
import GraphStore.Proofs.Bytes
import GraphStore.Slice

/-!
Contract: written forms that rank as what they stand for, whatever is written behind them.

Owns how two byte strings rank in front of any others (`Bytes.Ranks`). Strings in sequence rank
first by first (`Ranks.append`), and of two that rank neither goes on where the other one ends
(`Ranks.eq_of_isPrefix`). Numbers of one width rank as numbers, escaped strings as the strings, and
reading passes over the body of an escaped string wherever it stands (`readEscapedFrom_escapeBody`).
-/

namespace GraphStore

namespace Slice

variable {left right : Bytes}

theorem compareBytes_eq_lt : compareBytes left right = .lt ↔ left < right := by
  rw [compareBytes]
  split
  · rename_i less
    exact ⟨fun _ => less, fun _ => rfl⟩
  · rename_i notLess
    split <;> exact ⟨nofun, fun less => absurd less notLess⟩

theorem compareBytes_eq_gt : compareBytes left right = .gt ↔ right < left := by
  rw [compareBytes]
  split
  · rename_i less
    exact ⟨nofun, fun greater => absurd greater (List.lt_asymm less)⟩
  · split
    · rename_i greater
      exact ⟨fun _ => greater, fun _ => rfl⟩
    · rename_i notGreater
      exact ⟨nofun, fun greater => absurd greater notGreater⟩

theorem compareBytes_eq_eq : compareBytes left right = .eq ↔ left = right := by
  constructor
  · intro same
    refine List.le_antisymm (fun greater => ?_) fun less => ?_
    · exact nomatch same.symm.trans (compareBytes_eq_gt.2 greater)
    · exact nomatch same.symm.trans (compareBytes_eq_lt.2 less)
  · rintro rfl
    rw [compareBytes, if_neg (List.lt_irrefl _), if_neg (List.lt_irrefl _)]

end Slice

namespace Bytes

/-! ### One string in front of another -/

/-- Whatever follows them, the left string comes before the right one. -/
def Precedes (left right : Bytes) : Prop :=
  ∀ leftBehind rightBehind : Bytes, left ++ leftBehind < right ++ rightBehind

namespace Precedes

variable {left right : Bytes}

theorem lt (precedes : left.Precedes right) : left < right := by
  have alone := precedes [] []
  rwa [List.append_nil, List.append_nil] at alone

theorem of_head {first second : UInt8} (lower : first < second) :
    Precedes (first :: left) (second :: right) :=
  fun _ _ => List.cons_lt_cons_iff.2 (.inl lower)

theorem cons (byte : UInt8) (precedes : left.Precedes right) :
    Precedes (byte :: left) (byte :: right) :=
  fun leftBehind rightBehind =>
    List.cons_lt_cons_iff.2 (.inr ⟨rfl, precedes leftBehind rightBehind⟩)

/-- A common front does not matter. -/
theorem append_left (precedes : left.Precedes right) (front : Bytes) :
    (front ++ left).Precedes (front ++ right) := by
  induction front with
  | nil => exact precedes
  | cons byte front inductionHypothesis => exact inductionHypothesis.cons byte

theorem append_right (precedes : left.Precedes right) (leftBack rightBack : Bytes) :
    (left ++ leftBack).Precedes (right ++ rightBack) := by
  intro leftBehind rightBehind
  rw [List.append_assoc, List.append_assoc]
  exact precedes _ _

/-- A string in front of another one is no front of it, nor the other way round. -/
theorem not_isPrefix (precedes : left.Precedes right) : ¬ left <+: right ∧ ¬ right <+: left := by
  constructor
  · rintro ⟨behind, rfl⟩
    have less := precedes behind []
    rw [List.append_nil] at less
    exact List.lt_irrefl _ less
  · rintro ⟨behind, rfl⟩
    have less := precedes [] behind
    rw [List.append_nil] at less
    exact List.lt_irrefl _ less

theorem of_lt (lengths : left.length = right.length) (less : left < right) :
    left.Precedes right := by
  induction left generalizing right with
  | nil =>
      cases right with
      | nil => exact absurd less (List.lt_irrefl _)
      | cons byte right => exact nomatch lengths
  | cons first left inductionHypothesis =>
      cases right with
      | nil => exact nomatch lengths
      | cons second right =>
          rcases List.cons_lt_cons_iff.1 less with lower | ⟨rfl, tails⟩
          · exact of_head lower
          · exact (inductionHypothesis (Nat.succ.inj lengths) tails).cons first

end Precedes

theorem precedes_bigEndian {width low high : Nat} (less : low < high)
    (fits : high < Nat.pow 256 width) :
    (bigEndian width low).Precedes (bigEndian width high) :=
  Precedes.of_lt (by simp) (bigEndian_lt less fits)

/-! ### Ranks -/

/-- How two strings rank, whatever follows them: one comes before the other, or both are one. -/
def Ranks (left right : Bytes) : Ordering → Prop
  | .lt => left.Precedes right
  | .eq => left = right
  | .gt => right.Precedes left

namespace Ranks

variable {left right leftBack rightBack : Bytes} {rank backRank : Ordering}

/-- Strings that rank compare as their rank says. -/
theorem compareBytes_eq (ranks : left.Ranks right rank) : Slice.compareBytes left right = rank := by
  cases rank with
  | lt => exact Slice.compareBytes_eq_lt.2 (Precedes.lt ranks)
  | eq => exact Slice.compareBytes_eq_eq.2 ranks
  | gt => exact Slice.compareBytes_eq_gt.2 (Precedes.lt ranks)

/-- Strings that rank are equal just where their rank says so. -/
theorem eq_iff (ranks : left.Ranks right rank) : left = right ↔ rank = .eq := by
  rw [← Slice.compareBytes_eq_eq, ranks.compareBytes_eq]

/-- Neither of two strings that rank goes on where the other one ends. -/
theorem eq_of_isPrefix (ranks : left.Ranks right rank) (front : left <+: right) : left = right := by
  cases rank with
  | lt => exact absurd front (Precedes.not_isPrefix ranks).1
  | eq => exact ranks
  | gt => exact absurd front (Precedes.not_isPrefix ranks).2

/-- In a sequence the first strings decide, and the ones behind them where those are the same. -/
theorem append (ranks : left.Ranks right rank) (backs : leftBack.Ranks rightBack backRank) :
    (left ++ leftBack).Ranks (right ++ rightBack) (rank.then backRank) := by
  cases rank with
  | lt => exact Precedes.append_right ranks leftBack rightBack
  | gt => exact Precedes.append_right ranks rightBack leftBack
  | eq =>
      obtain rfl : left = right := ranks
      cases backRank with
      | lt => exact Precedes.append_left backs left
      | eq => exact congrArg (left ++ ·) backs
      | gt => exact Precedes.append_left backs left

end Ranks

end Bytes

namespace Encoding

/-! ### Numbers of fixed width -/

/-- Digits of fixed width rank as the numbers, where these lie within the width. -/
theorem ranks_bigEndian (width : Nat) {left right : Nat} (leftFits : left < Nat.pow 256 width)
    (rightFits : right < Nat.pow 256 width) :
    (Bytes.bigEndian width left).Ranks (Bytes.bigEndian width right) (compare left right) := by
  rcases ranked : compare left right with _ | _ | _
  · exact Bytes.precedes_bigEndian (Nat.compare_eq_lt.1 ranked) rightFits
  · exact congrArg (Bytes.bigEndian width) (Nat.compare_eq_eq.1 ranked)
  · exact Bytes.precedes_bigEndian (Nat.compare_eq_gt.1 ranked) leftFits

/-! ### Escaped strings -/

theorem escapeBody_zero (rest : Bytes) : escapeBody (0 :: rest) = 0 :: 255 :: escapeBody rest := rfl

theorem escapeBody_cons {byte : UInt8} (nonzero : byte ≠ 0) (rest : Bytes) :
    escapeBody (byte :: rest) = byte :: escapeBody rest := by
  rw [escapeBody, if_neg nonzero]

/-- Reading passes over the body of a string and goes on behind it. -/
theorem readEscapedFrom_escapeBody (content behind : Bytes) (offset : Nat) :
    readEscapedFrom offset (escapeBody content ++ behind) =
      (readEscapedFrom (offset + (escapeBody content).length) behind).map fun found =>
        (content ++ found.1, found.2) := by
  induction content generalizing offset with
  | nil =>
      rw [escapeBody, List.nil_append, List.length_nil, Nat.add_zero]
      rcases readEscapedFrom offset behind with damage | found <;> rfl
  | cons byte content inductionHypothesis =>
      by_cases zero : byte = 0
      · subst zero
        have place : offset + 2 + (escapeBody content).length =
            offset + (escapeBody (0 :: content)).length := by
          rw [escapeBody_zero, List.length_cons, List.length_cons]
          omega
        rw [← place, escapeBody_zero, List.cons_append, List.cons_append, readEscapedFrom,
          if_pos rfl, if_pos rfl, inductionHypothesis]
        rcases readEscapedFrom (offset + 2 + (escapeBody content).length) behind with
          damage | found <;> rfl
      · have place : offset + 1 + (escapeBody content).length =
            offset + (escapeBody (byte :: content)).length := by
          rw [escapeBody_cons zero, List.length_cons]
          omega
        rw [← place, escapeBody_cons zero, List.cons_append, readEscapedFrom.eq_def]
        dsimp only
        rw [if_neg zero, inductionHypothesis]
        rcases readEscapedFrom (offset + 1 + (escapeBody content).length) behind with
          damage | found <;> rfl

@[simp] theorem escaped_nil : escaped [] = [0, 1] := rfl

theorem escaped_zero (rest : Bytes) : escaped (0 :: rest) = 0 :: 255 :: escaped rest := rfl

theorem escaped_cons {byte : UInt8} (nonzero : byte ≠ 0) (rest : Bytes) :
    escaped (byte :: rest) = byte :: escaped rest := by
  rw [escaped, escapeBody_cons nonzero, List.cons_append]
  rfl

/-- Reading gives the string back and stops behind its end mark. -/
theorem readEscapedFrom_escaped (content rest : Bytes) (offset : Nat) :
    readEscapedFrom offset (escaped content ++ rest) = .ok (content, rest) := by
  rw [escaped, List.append_assoc, readEscapedFrom_escapeBody]
  exact congrArg (fun string => Except.ok (string, rest)) (List.append_nil content)

theorem precedes_escaped {left right : Bytes} (less : left < right) :
    (escaped left).Precedes (escaped right) := by
  induction left generalizing right with
  | nil =>
      cases right with
      | nil => exact absurd less (List.lt_irrefl _)
      | cons byte right =>
          -- the end mark `00 01` comes before an escaped zero byte and before every other byte
          by_cases zero : byte = 0
          · subst zero
            exact (Bytes.Precedes.of_head (by decide)).cons 0
          · rw [escaped_cons zero]
            exact .of_head (UInt8.pos_iff_ne_zero.2 zero)
  | cons first left inductionHypothesis =>
      cases right with
      | nil => exact nomatch less
      | cons second right =>
          rcases List.cons_lt_cons_iff.1 less with lower | ⟨rfl, tails⟩
          · have nonzero : second ≠ 0 := fun zero => UInt8.not_lt_zero (zero ▸ lower)
            rw [escaped_cons nonzero]
            by_cases zero : first = 0
            · subst zero
              exact .of_head lower
            · rw [escaped_cons zero]
              exact .of_head lower
          · have behind := inductionHypothesis tails
            by_cases zero : first = 0
            · subst zero
              exact (behind.cons 255).cons 0
            · rw [escaped_cons zero, escaped_cons zero]
              exact behind.cons first

/-- Escaped strings rank as the strings. -/
theorem ranks_escaped (left right : Bytes) :
    (escaped left).Ranks (escaped right) (Slice.compareBytes left right) := by
  rcases ranked : Slice.compareBytes left right with _ | _ | _
  · exact precedes_escaped (Slice.compareBytes_eq_lt.1 ranked)
  · exact congrArg escaped (Slice.compareBytes_eq_eq.1 ranked)
  · exact precedes_escaped (Slice.compareBytes_eq_gt.1 ranked)

end Encoding

end GraphStore
