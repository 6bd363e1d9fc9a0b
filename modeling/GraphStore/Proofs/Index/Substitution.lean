import GraphStore.Proofs.Index.References

/-!
Contract: replacing the references in the text of a query.

Owns a query as literals with references between them (`joined`), of which each is where the stem
occurs first behind the one in front of it (`Sound`), and the same text with the references replaced
(`replaced`). What is inserted is never searched: the replacement goes on behind each reference, and
what it comes to is told by the part of the query behind the last one (`replaceFrom_joined`). Every
query either consists of references and literals alone or goes wrong at a first faulty reference
(`substituteKeys_exact`).
-/

namespace GraphStore.Substitution

/-! ### Bytes -/

theorem byteCount_append (front back : List Char) :
    byteCount (front ++ back) = byteCount front + byteCount back := by
  induction front with
  | nil => exact (Nat.zero_add _).symm
  | cons char front inductionHypothesis =>
      show char.utf8Size + byteCount (front ++ back) = char.utf8Size + byteCount front + _
      rw [inductionHypothesis, Nat.add_assoc]

/-- The count of bytes is the size of the text in UTF-8. -/
theorem byteCount_eq_utf8ByteSize (text : List Char) :
    byteCount text = (String.ofList text).utf8ByteSize := by
  induction text with
  | nil => rfl
  | cons char text inductionHypothesis =>
      show char.utf8Size + byteCount text = _
      rw [inductionHypothesis, String.ofList_cons, String.utf8ByteSize_append,
        String.utf8ByteSize_singleton]

/-! ### Queries as pieces -/

/-- A literal, and the reference behind it and the stem. -/
structure Piece where
  literal : List Char
  reference : Reference
deriving DecidableEq

/-- The text of pieces in front of what comes last. -/
def joined (stem last : List Char) : List Piece → List Char
  | [] => last
  | piece :: pieces =>
    piece.literal ++ (stem ++ (piece.reference.text ++ joined stem last pieces))

def replaced (replacement : String → String) (last : List Char) : List Piece → List Char
  | [] => last
  | piece :: pieces =>
    piece.literal ++ (replacement (String.ofList piece.reference.name)).toList ++
      replaced replacement last pieces

/-- The first occurrence of the stem behind each reference, and from the start, is in front of the
next reference. -/
def Sound (stem last : List Char) : List Piece → Prop
  | [] => True
  | piece :: pieces =>
    FirstAt stem (joined stem last (piece :: pieces)) piece.literal ∧
      piece.reference.Reads (joined stem last pieces) ∧ Sound stem last pieces

instance (stem last : List Char) : (pieces : List Piece) → Decidable (Sound stem last pieces)
  | [] => isTrue trivial
  | piece :: pieces =>
    have : Decidable (Sound stem last pieces) := instDecidableSound stem last pieces
    inferInstanceAs (Decidable (FirstAt stem (joined stem last (piece :: pieces)) piece.literal ∧
      piece.reference.Reads (joined stem last pieces) ∧ Sound stem last pieces))

variable {stem last text : List Char} {pieces : List Piece}

theorem joined_append (stem front back : List Char) (pieces : List Piece) :
    joined stem (front ++ back) pieces = joined stem front pieces ++ back := by
  induction pieces with
  | nil => rfl
  | cons piece pieces inductionHypothesis =>
      rw [joined, joined, inductionHypothesis]
      simp only [List.append_assoc]

/-- There are no more references than characters. -/
theorem length_le_length_joined (sound : Sound stem last pieces) :
    pieces.length ≤ (joined stem last pieces).length := by
  induction pieces with
  | nil => exact Nat.zero_le _
  | cons piece pieces inductionHypothesis =>
      obtain ⟨-, reads, rest⟩ := sound
      have bound := inductionHypothesis rest
      have filled := Reference.length_text_pos reads
      rw [joined]
      simp only [List.length_append, List.length_cons]
      omega

/-! ### The replacement -/

section Replacement

variable {replacement : String → String} {offset : Nat}

theorem replaceFrom_of_absent (absent : ¬ stem <:+: text) :
    replaceFrom stem replacement offset text = .ok text := by
  have none := splitAtFirst_eq_none.2 absent
  unfold replaceFrom
  split
  · rfl
  · rename_i found
    rw [none] at found
    cases found

/-- One round of the replacement. -/
theorem replaceFrom_of_found {front behind : List Char}
    (found : splitAtFirst stem text = some (front, behind)) :
    replaceFrom stem replacement offset text =
      match readReference (offset + byteCount front) behind with
      | .error failure => .error failure
      | .ok (name, rest) =>
        (replaceFrom stem replacement (offset + (byteCount text - byteCount rest)) rest).map
          (front ++ (replacement (String.ofList name)).toList ++ ·) := by
  rw [replaceFrom]
  split
  · rename_i none
    rw [none] at found
    cases found
  · rename_i before after same
    rw [same] at found
    obtain ⟨rfl, rfl⟩ := Prod.mk.inj (Option.some.inj found)
    dsimp only
    split
    · rename_i read
      rw [read]
    · rename_i read
      rw [read]
      dsimp only
      split
      · rename_i failed
        rw [failed]
        rfl
      · rename_i done
        rw [done]
        rfl

theorem replaceFrom_of_faulty {front behind : List Char} {fault : Fault}
    (first : FirstAt stem (front ++ (stem ++ behind)) front) (faulty : Faulty fault behind) :
    replaceFrom stem replacement offset (front ++ (stem ++ behind)) =
      .error (.invalidArgument (fault.misuse (offset + byteCount front))) := by
  rw [replaceFrom_of_found (splitAtFirst_of_firstAt first), readReference_of_faulty _ faulty]

/-- The replacement goes on behind a reference, as many bytes further on. -/
theorem replaceFrom_of_reads {front rest : List Char} {reference : Reference}
    (first : FirstAt stem (front ++ (stem ++ (reference.text ++ rest))) front)
    (reads : reference.Reads rest) :
    replaceFrom stem replacement offset (front ++ (stem ++ (reference.text ++ rest))) =
      (replaceFrom stem replacement
        (offset + byteCount (front ++ (stem ++ reference.text))) rest).map
          (front ++ (replacement (String.ofList reference.name)).toList ++ ·) := by
  have consumed : byteCount (front ++ (stem ++ (reference.text ++ rest))) - byteCount rest =
      byteCount (front ++ (stem ++ reference.text)) := by
    simp only [byteCount_append]
    omega
  rw [replaceFrom_of_found (splitAtFirst_of_firstAt first), readReference_of_reads _ reads]
  dsimp only
  rw [consumed]

/-- The references of sound pieces are replaced one by one. What lies behind them tells how the
replacement ends. -/
theorem replaceFrom_joined (sound : Sound stem last pieces) :
    replaceFrom stem replacement offset (joined stem last pieces) =
      (replaceFrom stem replacement (offset + byteCount (joined stem [] pieces)) last).map
        fun tail => replaced replacement tail pieces := by
  induction pieces generalizing offset with
  | nil =>
      show replaceFrom stem replacement offset last =
        Except.map id (replaceFrom stem replacement offset last)
      rw [Except.map_id]
      rfl
  | cons piece pieces inductionHypothesis =>
      obtain ⟨first, reads, rest⟩ := sound
      have further : offset + byteCount (piece.literal ++ (stem ++ piece.reference.text)) +
          byteCount (joined stem [] pieces) =
            offset + byteCount (joined stem [] (piece :: pieces)) := by
        simp only [joined, byteCount_append]
        omega
      rw [joined] at first ⊢
      rw [replaceFrom_of_reads first reads, inductionHypothesis rest, further]
      cases replaceFrom stem replacement (offset + byteCount (joined stem [] (piece :: pieces)))
        last <;> rfl

end Replacement

/-! ### All queries -/

/-- The query consists of sound pieces and a literal without the stem. -/
structure ConsistsOf (stem text : List Char) (pieces : List Piece) (last : List Char) : Prop where
  text_eq : text = joined stem last pieces
  sound : Sound stem last pieces
  absent : ¬ stem <:+: last

/-- The query goes wrong at a first faulty reference: sound pieces, a literal and the stem lie in
front of it. -/
structure FailsAt (stem text : List Char) (pieces : List Piece) (literal : List Char)
    (fault : Fault) (behind : List Char) : Prop where
  text_eq : text = joined stem (literal ++ (stem ++ behind)) pieces
  sound : Sound stem (literal ++ (stem ++ behind)) pieces
  first : FirstAt stem (literal ++ (stem ++ behind)) literal
  faulty : Faulty fault behind

theorem consistsOf_or_failsAt (stem text : List Char) :
    (∃ pieces last, ConsistsOf stem text pieces last) ∨
      ∃ pieces literal fault behind, FailsAt stem text pieces literal fault behind := by
  induction length : text.length using Nat.strongRecOn generalizing text with
  | ind size inductionHypothesis =>
      subst length
      cases found : splitAtFirst stem text with
      | none => exact Or.inl ⟨[], text, rfl, trivial, splitAtFirst_eq_none.1 found⟩
      | some parts =>
          obtain ⟨front, behind⟩ := parts
          obtain ⟨rfl, first⟩ := firstAt_of_splitAtFirst found
          rcases reads_or_faulty behind with ⟨reference, rest, rfl, reads⟩ | ⟨fault, faulty⟩
          · have filled := Reference.length_text_pos reads
            have shorter : rest.length < (front ++ (stem ++ (reference.text ++ rest))).length := by
              simp only [List.length_append]
              omega
            rcases inductionHypothesis _ shorter rest rfl with
              ⟨pieces, last, rfl, sound, absent⟩ | ⟨pieces, literal, fault, behind, fails⟩
            · exact Or.inl ⟨⟨front, reference⟩ :: pieces, last, rfl, ⟨first, reads, sound⟩, absent⟩
            · obtain ⟨rfl, sound, firstThere, faulty⟩ := fails
              exact Or.inr ⟨⟨front, reference⟩ :: pieces, literal, fault, behind, rfl,
                ⟨first, reads, sound⟩, firstThere, faulty⟩
          · exact Or.inr ⟨[], front, fault, behind, rfl, trivial, first, faulty⟩

section Queries

variable {query stemText : String} (resolve? : String → Option String) (unknown : String)

theorem substituteKeys_of_consistsOf {last : List Char}
    (consists : ConsistsOf stemText.toList query.toList pieces last) :
    substituteKeys query stemText resolve? unknown =
      .ok (String.ofList (replaced (fun name => (resolve? name).getD unknown) last pieces)) := by
  rw [substituteKeys, consists.text_eq, replaceFrom_joined consists.sound,
    replaceFrom_of_absent consists.absent]
  rfl

theorem substituteKeys_of_failsAt {literal behind : List Char} {fault : Fault}
    (fails : FailsAt stemText.toList query.toList pieces literal fault behind) :
    substituteKeys query stemText resolve? unknown =
      .error (.invalidArgument (fault.misuse
        (String.ofList (joined stemText.toList literal pieces)).utf8ByteSize)) := by
  have position : 0 + byteCount (joined stemText.toList [] pieces) + byteCount literal =
      (String.ofList (joined stemText.toList literal pieces)).utf8ByteSize := by
    have parts : joined stemText.toList literal pieces =
        joined stemText.toList [] pieces ++ literal :=
      joined_append stemText.toList [] literal pieces
    rw [← byteCount_eq_utf8ByteSize, parts, byteCount_append, Nat.zero_add]
  rw [substituteKeys, fails.text_eq, replaceFrom_joined fails.sound,
    replaceFrom_of_faulty fails.first fails.faulty, position]
  rfl

end Queries

/-- A query of sound pieces and a literal without the stem keeps its literals, and each reference is
replaced by the field of its name or the unknown name, in no more rounds than the query has
characters; so the empty stem has no such query. Every other query fails at the first reference that
is blank or not closed, and the position is the number of bytes in front of it. -/
theorem substituteKeys_exact (query stem : String) (resolve? : String → Option String)
    (unknown : String) :
    (∀ pieces last, ConsistsOf stem.toList query.toList pieces last →
      stem ≠ "" ∧ pieces.length ≤ query.toList.length ∧
        substituteKeys query stem resolve? unknown =
          .ok (String.ofList (replaced (fun name => (resolve? name).getD unknown) last pieces))) ∧
    (∀ pieces literal fault behind, FailsAt stem.toList query.toList pieces literal fault behind →
      pieces.length ≤ query.toList.length ∧
        substituteKeys query stem resolve? unknown =
          .error (.invalidArgument (fault.misuse
            (String.ofList (joined stem.toList literal pieces)).utf8ByteSize))) ∧
    ((¬ ∃ pieces last, ConsistsOf stem.toList query.toList pieces last) ↔
      ∃ pieces literal fault behind,
        FailsAt stem.toList query.toList pieces literal fault behind) := by
  refine ⟨?_, ?_, ?_, ?_⟩
  · intro pieces last consists
    refine ⟨?_, ?_, substituteKeys_of_consistsOf resolve? unknown consists⟩
    · rintro rfl
      exact consists.absent List.nil_infix
    · rw [consists.text_eq]
      exact length_le_length_joined consists.sound
  · intro pieces literal fault behind fails
    refine ⟨?_, substituteKeys_of_failsAt resolve? unknown fails⟩
    rw [fails.text_eq]
    exact length_le_length_joined fails.sound
  · intro none
    exact (consistsOf_or_failsAt stem.toList query.toList).resolve_left none
  · intro fails consists
    obtain ⟨pieces, literal, fault, behind, fails⟩ := fails
    obtain ⟨read, last, consists⟩ := consists
    have failed := substituteKeys_of_failsAt resolve? unknown fails
    rw [substituteKeys_of_consistsOf resolve? unknown consists] at failed
    cases failed

/-- The fields of two names; one of them looks like a reference. -/
def twoFields (name : String) : Option String :=
  if name = "name" then some "v.f" else if name = "full näme" then some "g" else none

/-- Words and a quoted name in a text with characters of two bytes; two references touch. -/
def mixedPieces : List Piece :=
  [⟨"é ".toList, .word "name".toList⟩, ⟨":(v) AND ".toList, .quoted "full näme".toList⟩,
    ⟨[], .word "ü_1".toList⟩]

theorem substituteKeys_exact_mixedPieces :
    ConsistsOf "v.".toList "é v.name:(v) AND v.\"full näme\"v.ü_1!".toList mixedPieces
        "!".toList ∧
      substituteKeys "é v.name:(v) AND v.\"full näme\"v.ü_1!" "v." twoFields "none" =
        .ok "é v.f:(v) AND gnone!" ∧
      FailsAt "v.".toList "é v.ü v. :x".toList [⟨"é ".toList, .word "ü".toList⟩] " ".toList
        .blank " :x".toList ∧
      substituteKeys "é v.ü v. :x" "v." twoFields "none" =
        .error (.invalidArgument (.emptyReference 8)) := by
  have consists : ConsistsOf "v.".toList "é v.name:(v) AND v.\"full näme\"v.ü_1!".toList
      mixedPieces "!".toList :=
    ⟨by decide +kernel, by decide +kernel, by decide +kernel⟩
  have fails : FailsAt "v.".toList "é v.ü v. :x".toList [⟨"é ".toList, .word "ü".toList⟩]
      " ".toList .blank " :x".toList :=
    have start : ' ' ≠ '"' ∧ isWordChar ' ' = false := by decide +kernel
    ⟨by decide +kernel, by decide +kernel, by decide +kernel,
      .noName fun char first => Option.some.inj first ▸ start⟩
  refine ⟨consists, ?_, fails, ?_⟩
  · have read := (substituteKeys_exact _ _ twoFields "none").1 _ _ consists
    rw [read.2.2]
    decide +kernel
  · have failed := (substituteKeys_exact _ _ twoFields "none").2.1 _ _ _ _ fails
    rw [failed.2]
    decide +kernel

end GraphStore.Substitution
