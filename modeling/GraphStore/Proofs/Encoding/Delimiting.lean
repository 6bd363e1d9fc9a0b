import GraphStore.Proofs.Encoding.Fields

/-!
Contract: readers that tell a whole source from one that is cut off or goes on.

Owns `Read.Delimits`, which joins `Read.Takes` and damage in every shorter front: a step finds the
end of what was written wherever it stands, and steps in sequence find the ends in sequence
(`Delimits.bind`). A reader that asks for the end of its source at last encloses what was written
(`Read.Encloses`): it accepts that source, and neither a shorter front of it nor anything behind it.
-/

namespace GraphStore.Encoding

/-- The step takes `written` for `value` in front of any bytes, and it reports damage where only a
part of `written` is left. Offsets stay below the limit that readers check. -/
structure Read.Delimits {α : Type} (step : Read α) (written : Bytes) (value : α) : Prop where
  takes : step.Takes written value
  torn : ∀ offset cut, offset + written.length < offsetLimit → cut < written.length →
    ∃ damage after, step ⟨offset, written.take cut⟩ = (.error (.corruption damage), after)

/-- The reader takes `written` for `value` if that is the whole source. It reports damage where a
part of `written` is missing, and where bytes follow, the damage of so many surplus ones. -/
structure Read.Encloses {α : Type} (reader : Read α) (surplus : Nat → Damage) (written : Bytes)
    (value : α) : Prop where
  whole : reader.TakesAll written value
  torn : ∀ offset cut, offset + written.length < offsetLimit → cut < written.length →
    ∃ damage after, reader ⟨offset, written.take cut⟩ = (.error (.corruption damage), after)
  longer : ∀ offset behind, offset + written.length < offsetLimit → behind ≠ [] →
    ∃ after, reader ⟨offset, written ++ behind⟩ =
      (.error (.corruption (surplus behind.length)), after)

namespace Read.Delimits

variable {α β : Type} {first : Read α} {next : α → Read β} {front back : Bytes} {value : α}
  {result : β} {surplus : Nat → Damage}

theorem of_breaks {step : Read α} {written : Bytes} (takes : step.Takes written value)
    (breaks : step.Breaks written) : step.Delimits written value :=
  ⟨takes, fun offset cut _ inside => breaks offset cut inside⟩

theorem pure (value : α) : Delimits (Pure.pure value) [] value :=
  ⟨Takes.pure value, fun _ cut _ inside => absurd inside (Nat.not_lt_zero cut)⟩

/-- A cut through two strings goes through the first one, or it leaves the first one whole. -/
theorem torn_bind (delimitsFront : first.Delimits front value)
    (tornBack : ∀ offset cut, offset + back.length < offsetLimit → cut < back.length →
      ∃ damage after, next value ⟨offset, back.take cut⟩ = (.error (.corruption damage), after))
    (offset cut : Nat) (within : offset + (front ++ back).length < offsetLimit)
    (inside : cut < (front ++ back).length) :
    ∃ damage after, (first >>= next) ⟨offset, (front ++ back).take cut⟩ =
      (.error (.corruption damage), after) := by
  rw [List.length_append] at within inside
  by_cases early : cut < front.length
  · obtain ⟨damage, after, failed⟩ := delimitsFront.torn offset cut (by omega) early
    rw [List.take_append_of_le_length (Nat.le_of_lt early)]
    exact ⟨damage, after, Action.bind_of_error failed⟩
  · have passed := delimitsFront.takes offset (back.take (cut - front.length)) (by omega)
    obtain ⟨damage, after, failed⟩ :=
      tornBack (offset + front.length) (cut - front.length) (by omega) (by omega)
    rw [List.take_append, List.take_of_length_le (Nat.le_of_not_lt early),
      Action.bind_of_ok passed]
    exact ⟨damage, after, failed⟩

/-- Steps in sequence delimit what they delimit one behind the other. -/
theorem bind (delimitsFront : first.Delimits front value)
    (delimitsBack : (next value).Delimits back result) :
    Delimits (first >>= next) (front ++ back) result :=
  ⟨delimitsFront.takes.bind delimitsBack.takes, delimitsFront.torn_bind delimitsBack.torn⟩

/-- What follows and reads nothing does not move the end. -/
theorem answering (delimits : first.Delimits front value)
    (answers : next value = Pure.pure result) : Delimits (first >>= next) front result := by
  have composed : Delimits (first >>= next) (front ++ []) result :=
    delimits.bind (answers ▸ pure result)
  rwa [List.append_nil] at composed

/-- A delimiting step in front of an enclosing one encloses both parts. -/
theorem bindEncloses (delimitsFront : first.Delimits front value)
    (enclosesBack : (next value).Encloses surplus back result) :
    Encloses (first >>= next) surplus (front ++ back) result := by
  refine ⟨delimitsFront.takes.bindAll enclosesBack.whole,
    delimitsFront.torn_bind enclosesBack.torn, ?_⟩
  intro offset behind within filled
  rw [List.length_append] at within
  have passed := delimitsFront.takes offset (back ++ behind) (by omega)
  obtain ⟨after, failed⟩ := enclosesBack.longer (offset + front.length) behind (by omega) filled
  rw [List.append_assoc, Action.bind_of_ok passed]
  exact ⟨after, failed⟩

end Read.Delimits

/-- The end of the source encloses nothing. -/
theorem encloses_finish (surplus : Nat → Damage) {α : Type} (value : α) :
    (Read.finish surplus >>= fun _ => pure value : Read α).Encloses surplus [] value := by
  refine ⟨takesAll_finish surplus value, fun _ cut _ inside => absurd inside (Nat.not_lt_zero cut),
    ?_⟩
  intro offset behind _ filled
  have goesOn : ¬ Cursor.exhausted ⟨offset, behind⟩ = true := by
    rw [Cursor.exhausted, List.isEmpty_iff]
    exact filled
  refine ⟨⟨offset, behind⟩, Action.bind_of_error ?_⟩
  rw [List.nil_append, Read.finish, if_neg goesOn]
  rfl

theorem delimits_varint {value : Nat} (fits : value < Word.count 64) :
    Read.varint.Delimits (varint value) (UInt64.ofNat value) :=
  .of_breaks (takes_varint fits) (breaks_varint value)

theorem delimits_take (content : Bytes) : (Read.take content.length).Delimits content content :=
  .of_breaks (takes_take content) (breaks_take rfl)

end GraphStore.Encoding
