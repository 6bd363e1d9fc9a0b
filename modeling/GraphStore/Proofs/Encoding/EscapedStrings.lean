import GraphStore.Proofs.Encoding.Accepting

/-!
Contract: the grammar of escaped strings, and their order.

Owns what is found at the front of any source (`Scans`): an escaped string with its end mark, or the
body of one behind which the source ends, breaks off within an escape, or goes on with a zero byte
and a byte that marks nothing. Every source begins in exactly one of these ways, and splitting tells
which (`splitEscaped_eq_iff`). The order of escaped strings is that of the strings, whatever is
written behind them (`compareBytes_escaped_append`).
-/

namespace GraphStore.Encoding

variable {source content behind : Bytes}

/-! ### Bodies -/

/-- What can stand behind the longest body at the front of a source. -/
inductive EndsBody : Bytes → Prop where
  | absent : EndsBody []
  | torn : EndsBody [0]
  | marked {mark : UInt8} (behind : Bytes) (noZero : mark ≠ 255) : EndsBody (0 :: mark :: behind)

/-- Every source begins with the body of a string, and the offset that reading keeps along does not
matter for it. -/
theorem exists_escapeBody (source : Bytes) :
    ∃ content behind, source = escapeBody content ++ behind ∧ EndsBody behind := by
  generalize (0 : Nat) = offset
  induction offset, source using readEscapedFrom.induct with
  | case1 offset => exact ⟨[], [], rfl, .absent⟩
  | case2 offset => exact ⟨[], [0], rfl, .torn⟩
  | case3 offset rest inductionHypothesis =>
      obtain ⟨content, behind, rfl, ends⟩ := inductionHypothesis
      exact ⟨0 :: content, behind, rfl, ends⟩
  | case4 offset rest => exact ⟨[], 0 :: 1 :: rest, rfl, .marked rest (by decide)⟩
  | case5 offset mark rest noZero notEnd => exact ⟨[], 0 :: mark :: rest, rfl, .marked rest noZero⟩
  | case6 offset byte rest nonzero inductionHypothesis =>
      obtain ⟨content, behind, rfl, ends⟩ := inductionHypothesis
      refine ⟨byte :: content, behind, ?_, ends⟩
      rw [escapeBody_cons nonzero, List.cons_append]

/-! ### The grammar -/

/-- What splitting finds at the front of a source. The constructors say how the source begins. -/
inductive Scans : Bytes → Result (Bytes × Nat) → Prop where
  | closed (content behind : Bytes) :
      Scans (escaped content ++ behind) (.ok (content, (escaped content).length))
  | unended (content : Bytes) : Scans (escapeBody content) (.error (.corruption .unterminated))
  | torn (content : Bytes) :
      Scans (escapeBody content ++ [0]) (.error (.corruption .unterminated))
  | foreign (content : Bytes) {mark : UInt8} (behind : Bytes) (noZero : mark ≠ 255)
      (notEnd : mark ≠ 1) :
      Scans (escapeBody content ++ 0 :: mark :: behind)
        (.error (.corruption (.badEscape mark (escapeBody content).length)))

theorem splitEscaped_escaped (content behind : Bytes) :
    splitEscaped (escaped content ++ behind) = .ok (content, (escaped content).length) := by
  rw [splitEscaped, readEscapedFrom_escaped]
  dsimp only
  rw [List.length_append, Nat.add_sub_cancel]

theorem splitEscaped_of_damage {damage : Damage} (content behind : Bytes)
    (damaged : readEscapedFrom (0 + (escapeBody content).length) behind = .error damage) :
    splitEscaped (escapeBody content ++ behind) = .error (.corruption damage) := by
  rw [splitEscaped, readEscapedFrom_escapeBody, damaged]
  rfl

/-- Splitting finds what the grammar says. -/
theorem Scans.splitEscaped {outcome : Result (Bytes × Nat)} (scans : Scans source outcome) :
    splitEscaped source = outcome := by
  cases scans with
  | closed content behind => exact splitEscaped_escaped content behind
  | unended content =>
      have split := splitEscaped_of_damage content [] rfl
      rwa [List.append_nil] at split
  | torn content => exact splitEscaped_of_damage content [0] rfl
  | foreign content behind noZero notEnd =>
      apply splitEscaped_of_damage content
      rw [readEscapedFrom, if_pos rfl, if_neg noZero, if_neg notEnd, Nat.zero_add]

/-- The grammar covers all sources. -/
theorem exists_scans (source : Bytes) : ∃ outcome, Scans source outcome := by
  obtain ⟨content, behind, rfl, ends⟩ := exists_escapeBody source
  cases ends with
  | absent =>
      rw [List.append_nil]
      exact ⟨_, .unended content⟩
  | torn => exact ⟨_, .torn content⟩
  | @marked mark behind noZero =>
      by_cases isEnd : mark = 1
      · subst isEnd
        have whole : escapeBody content ++ 0 :: 1 :: behind = escaped content ++ behind := by
          rw [escaped, List.append_assoc]
          rfl
        rw [whole]
        exact ⟨_, .closed content behind⟩
      · exact ⟨_, .foreign content behind noZero isEnd⟩

/-- Splitting finds what the grammar says and nothing else. -/
theorem splitEscaped_eq_iff {outcome : Result (Bytes × Nat)} :
    splitEscaped source = outcome ↔ Scans source outcome := by
  constructor
  · intro split
    obtain ⟨found, scans⟩ := exists_scans source
    rw [← split, scans.splitEscaped]
    exact scans
  · exact Scans.splitEscaped

/-- Splitting succeeds where what it has consumed is the escaped form of its answer. -/
theorem splitEscaped_eq_ok {consumed : Nat} :
    splitEscaped source = .ok (content, consumed) ↔
      consumed ≤ source.length ∧ source.take consumed = escaped content := by
  constructor
  · intro split
    cases splitEscaped_eq_iff.1 split with
    | closed content behind =>
        rw [List.length_append]
        exact ⟨Nat.le_add_right _ _, List.take_left⟩
  · rintro ⟨inside, front⟩
    have length : consumed = (escaped content).length := by
      rw [← front, List.length_take, Nat.min_eq_left inside]
    have whole : source = escaped content ++ source.drop consumed := by
      rw [← front, List.take_append_drop]
    rw [whole, splitEscaped_escaped, length]

/-- Splitting reports damage exactly where no escaped string stands at the front. -/
theorem splitEscaped_damaged_iff :
    (∃ damage, splitEscaped source = .error (.corruption damage)) ↔
      ∀ content, ¬ escaped content <+: source := by
  constructor
  · rintro ⟨damage, split⟩ content ⟨behind, rfl⟩
    rw [splitEscaped_escaped] at split
    exact nomatch split
  · intro absent
    obtain ⟨outcome, scans⟩ := exists_scans source
    have split := scans.splitEscaped
    cases scans with
    | closed content behind => exact absurd (List.prefix_append _ _) (absent content)
    | unended content => exact ⟨_, split⟩
    | torn content => exact ⟨_, split⟩
    | foreign content behind noZero notEnd => exact ⟨_, split⟩

/-! ### The order -/

/-- Where two strings differ, what is written behind their escaped forms does not count. -/
theorem compareBytes_escaped_append {left right : Bytes} (different : left ≠ right)
    (leftBehind rightBehind : Bytes) :
    Slice.compareBytes (escaped left ++ leftBehind) (escaped right ++ rightBehind) =
      Slice.compareBytes left right := by
  have ranks := ranks_escaped left right
  cases ranked : Slice.compareBytes left right with
  | lt =>
      rw [ranked] at ranks
      exact Slice.compareBytes_eq_lt.2 (ranks leftBehind rightBehind)
  | eq => exact absurd (Slice.compareBytes_eq_eq.1 ranked) different
  | gt =>
      rw [ranked] at ranks
      exact Slice.compareBytes_eq_gt.2 (ranks rightBehind leftBehind)

/-- Splitting takes an escaped string from in front of any bytes; it succeeds only where the bytes
that it has consumed are the escaped form of its answer, and wherever else it reports damage, of
which the grammar says what and where. Escaped strings with anything behind them are ordered as the
strings, where these differ. -/
theorem escaped_exact :
    (∀ content behind,
      splitEscaped (escaped content ++ behind) = .ok (content, (escaped content).length)) ∧
    (∀ source content consumed, splitEscaped source = .ok (content, consumed) ↔
      consumed ≤ source.length ∧ source.take consumed = escaped content) ∧
    (∀ source, (∃ damage, splitEscaped source = .error (.corruption damage)) ↔
      ∀ content, ¬ escaped content <+: source) ∧
    (∀ source outcome, splitEscaped source = outcome ↔ Scans source outcome) ∧
    ∀ left right leftBehind rightBehind : Bytes, left ≠ right →
      Slice.compareBytes (escaped left ++ leftBehind) (escaped right ++ rightBehind) =
        Slice.compareBytes left right :=
  ⟨splitEscaped_escaped, fun _ _ _ => splitEscaped_eq_ok, fun _ => splitEscaped_damaged_iff,
    fun _ _ => splitEscaped_eq_iff,
    fun _ _ leftBehind rightBehind different =>
      compareBytes_escaped_append different leftBehind rightBehind⟩

/-- A string and its extension by a zero byte, with a great byte behind the one and nothing behind
the other; and a source that ends right behind an escape byte. -/
theorem escaped_exact_zeros :
    splitEscaped (escaped [7, 0] ++ [255]) = .ok ([7, 0], 5) ∧
      (∃ damage, splitEscaped [7, 0, 255, 0] = .error (.corruption damage)) ∧
      ([7] : Bytes) ≠ [7, 0] ∧
      Slice.compareBytes (escaped [7] ++ [255, 255]) (escaped [7, 0] ++ []) = .lt := by
  obtain ⟨closed, -, -, scanned, ordered⟩ := escaped_exact
  have different : ([7] : Bytes) ≠ [7, 0] := by decide
  refine ⟨closed [7, 0] [255], ⟨_, (scanned _ _).2 (.torn [7, 0])⟩, different, ?_⟩
  rw [ordered [7] [7, 0] [255, 255] [] different]
  rfl

end GraphStore.Encoding
