import GraphStore.Proofs.Encoding.Numbers

/-!
Contract: what a reading step that succeeds has read.

Owns `Read.Spells`, the counterpart of `Read.Takes`: wherever a step succeeds, what it has passed is
the spelling of its answer. Keys of fixed width and escaped strings have one spelling each
(`spells_double`, `spells_escaped`), so their readers accept no other one. NaNs and signed zeros
have keys as all doubles have.
-/

namespace GraphStore

/-! ### Spellings of numbers and texts -/

namespace Bytes

theorem bigEndian_toNat {width : Nat} {content : Bytes} (length : content.length = width) :
    bigEndian width (toNat content) = content := by
  subst length
  apply eq_of_toNat (length_bigEndian _ _)
  exact toNat_bigEndian_of_lt (toNat_lt_weight content)

theorem ofString_of_toString? {content : Bytes} {text : String}
    (isText : toString? content = some text) : ofString text = content := by
  unfold toString? String.fromUTF8? at isText
  split at isText
  · obtain rfl := Option.some.inj isText
    rfl
  · exact nomatch isText

end Bytes

namespace Encoding

variable {content : Bytes}

theorem int64Key_int64OfKey (length : content.length = 8) :
    int64Key (int64OfKey content) = content := by
  have bound := Bytes.toNat_lt_weight content
  have weight : Nat.pow 256 8 = 18446744073709551616 := rfl
  have reach := reach_eq.1
  rw [length, weight] at bound
  have number : (int64OfKey content).toInt = content.toNat - Word.reach 64 :=
    Int64.toInt_ofInt_of_le (by omega) (by omega)
  rw [int64Key, number, Int.sub_add_cancel, Int.toNat_natCast]
  exact Bytes.bigEndian_toNat length

theorem int32Key_int32OfKey (length : content.length = 4) :
    int32Key (int32OfKey content) = content := by
  have bound := Bytes.toNat_lt_weight content
  have weight : Nat.pow 256 4 = 4294967296 := rfl
  have reach := reach_eq.2
  rw [length, weight] at bound
  have number : (int32OfKey content).toInt = content.toNat - Word.reach 32 :=
    Int32.toInt_ofInt_of_le (by omega) (by omega)
  rw [int32Key, number, Int.sub_add_cancel, Int.toNat_natCast]
  exact Bytes.bigEndian_toNat length

theorem doubleRank_doubleOfRank {rank : Nat} (fits : rank < Word.count 64) :
    doubleRank (doubleOfRank rank) = rank := by
  have weight := Double.signWeight_eq
  have reach := reach_eq.1
  have count := count_eq
  have bits : (doubleOfRank rank).bits.toNat =
      if Word.reach 64 ≤ rank then rank - Word.reach 64 else Word.count 64 - 1 - rank := by
    rw [doubleOfRank, UInt64.toNat_ofNat']
    split <;> omega
  rw [doubleRank, Double.negative, bits]
  simp only [decide_eq_true_eq]
  split <;> split <;> omega

theorem doubleBitsKey_doubleOfKey (length : content.length = 8) :
    doubleBitsKey (doubleOfKey content) = content := by
  have fits := Bytes.toNat_lt_weight content
  rw [length] at fits
  rw [doubleBitsKey, doubleOfKey, doubleRank_doubleOfRank fits]
  exact Bytes.bigEndian_toNat length

/-- Doubles with one key have the same bits. -/
theorem doubleBitsKey_inj {left right : Double} :
    doubleBitsKey left = doubleBitsKey right ↔ left = right := by
  refine ⟨fun same => ?_, congrArg doubleBitsKey⟩
  rw [← doubleOfKey_doubleBitsKey left, same, doubleOfKey_doubleBitsKey]

/-- Reading a string has passed its escaped form. -/
theorem readEscapedFrom_eq_ok {offset : Nat} {source value behind : Bytes}
    (accepted : readEscapedFrom offset source = .ok (value, behind)) :
    source = escaped value ++ behind := by
  induction offset, source using readEscapedFrom.induct generalizing value with
  | case1 offset => cases accepted
  | case2 offset => cases accepted
  | case3 offset rest inductionHypothesis =>
      rw [readEscapedFrom, if_pos rfl, if_pos rfl] at accepted
      rcases found : readEscapedFrom (offset + 2) rest with damage | ⟨content, after⟩
      · rw [found] at accepted
        cases accepted
      · rw [found] at accepted
        obtain ⟨rfl, rfl⟩ := Prod.mk.inj (Except.ok.inj accepted)
        rw [escaped_zero, inductionHypothesis found, List.cons_append, List.cons_append]
  | case4 offset rest =>
      obtain ⟨rfl, rfl⟩ := Prod.mk.inj (Except.ok.inj accepted)
      rfl
  | case5 offset mark rest notZero notEnd =>
      rw [readEscapedFrom, if_pos rfl, if_neg notZero, if_neg notEnd] at accepted
      cases accepted
  | case6 offset byte rest nonzero inductionHypothesis =>
      rw [readEscapedFrom.eq_def] at accepted
      dsimp only at accepted
      rw [if_neg nonzero] at accepted
      rcases found : readEscapedFrom (offset + 1) rest with damage | ⟨content, after⟩
      · rw [found] at accepted
        cases accepted
      · rw [found] at accepted
        obtain ⟨rfl, rfl⟩ := Prod.mk.inj (Except.ok.inj accepted)
        rw [escaped_cons nonzero, inductionHypothesis found, List.cons_append]

/-! ### Steps -/

/-- Wherever the step succeeds, it has passed the spelling of its answer. -/
def Read.Spells {α : Type} (step : Read α) (spell : α → Bytes) : Prop :=
  ∀ cursor answer after, step cursor = (.ok answer, after) →
    cursor.rest = spell answer ++ after.rest

/-- A reader answers what its step answers from the front of the source. -/
theorem answer_eq_ok {α : Type} {step : Read α} {source : Bytes} {answer : α} :
    step.answer source = .ok answer ↔
      ∃ after, step (Cursor.start source) = (.ok answer, after) :=
  ⟨fun answered => ⟨_, Prod.ext answered rfl⟩, fun ⟨_, ran⟩ => congrArg Prod.fst ran⟩

/-- Bytes that are taken stand in front of the bytes that are left. -/
theorem take_eq_ok {count : Nat} {cursor after : Cursor}
    (took : Read.take count cursor = (.ok content, after)) :
    content.length = count ∧ cursor.rest = content ++ after.rest := by
  unfold Read.take Cursor.remaining at took
  split at took
  · exact nomatch (Prod.mk.inj took).1
  · split at took
    · exact nomatch (Prod.mk.inj took).1
    · obtain ⟨same, rfl⟩ := Prod.mk.inj took
      obtain rfl := Except.ok.inj same
      refine ⟨?_, (List.take_append_drop count cursor.rest).symm⟩
      rw [List.length_take]
      omega

theorem finish_eq_ok {damage : Nat → Damage} {cursor after : Cursor} {done : Unit}
    (finished : Read.finish damage cursor = (.ok done, after)) : cursor.rest = [] := by
  unfold Read.finish at finished
  split at finished
  · rename_i exhausted
    exact List.isEmpty_iff.1 exhausted
  · exact nomatch (Prod.mk.inj finished).1

namespace Read.Spells

variable {α β : Type} {step : Read α} {spell : α → Bytes}

theorem mapped (spells : step.Spells spell) {change : α → β} {spellChanged : β → Bytes}
    (same : ∀ answer, spellChanged (change answer) = spell answer) :
    Spells (change <$> step) spellChanged := by
  intro cursor answer after ran
  obtain ⟨found, first, rfl⟩ := Action.map_eq_ok.1 ran
  rw [same]
  exact spells _ _ _ first

/-- A step that makes something of as many bytes as there are. -/
theorem of_width {width : Nat} {change : Bytes → α}
    (same : ∀ {content : Bytes}, content.length = width → spell (change content) = content) :
    Spells (Read.take width >>= fun bytes => pure (change bytes)) spell := by
  intro cursor answer after ran
  rw [bind_pure_comp] at ran
  obtain ⟨content, took, rfl⟩ := Action.map_eq_ok.1 ran
  obtain ⟨length, rest⟩ := take_eq_ok took
  rw [same length]
  exact rest

end Read.Spells

theorem spells_int64 : Read.int64.Spells int64Key := Read.Spells.of_width int64Key_int64OfKey

theorem spells_int32 : Read.int32.Spells int32Key := Read.Spells.of_width int32Key_int32OfKey

/-- Bytes that are read as a double are its key. -/
theorem spells_double : Read.double.Spells doubleBitsKey :=
  Read.Spells.of_width doubleBitsKey_doubleOfKey

theorem spells_uint8 : Read.uint8.Spells fun value => [value] := by
  have step : Read.uint8 = (Read.take 1 >>= fun bytes => pure (UInt8.ofNat bytes.toNat)) := by
    simp only [Read.uint8, Read.bigEndian, bind_assoc, pure_bind]
  rw [step]
  refine Read.Spells.of_width fun {content} length => ?_
  obtain ⟨byte, rfl⟩ := List.length_eq_one_iff.1 length
  simp [Bytes.toNat]

theorem spells_uint64 : Read.uint64.Spells Bytes.ofUInt64 := by
  have step : Read.uint64 = (Read.take 8 >>= fun bytes => pure (UInt64.ofNat bytes.toNat)) := by
    simp only [Read.uint64, Read.bigEndian, bind_assoc, pure_bind]
  rw [step]
  refine Read.Spells.of_width fun {content} length => ?_
  have fits := Bytes.toNat_lt_weight content
  rw [length] at fits
  rw [Bytes.ofUInt64, UInt64.toNat_ofNat_of_lt' fits]
  exact Bytes.bigEndian_toNat length

/-- Bytes that are read as an escaped string are its escaped form. -/
theorem spells_escaped : Read.escaped.Spells escaped := by
  intro cursor content after ran
  unfold Read.escaped at ran
  split at ran
  · rename_i value behind accepted
    obtain ⟨same, rfl⟩ := Prod.mk.inj ran
    obtain rfl := Except.ok.inj same
    exact readEscapedFrom_eq_ok accepted
  · exact nomatch (Prod.mk.inj ran).1

end Encoding

end GraphStore
