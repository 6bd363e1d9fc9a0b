import GraphStore.Index.Substitution
import Mathlib.Data.List.TakeWhile

/-!
Contract: references in the text of a query, one at a time.

Owns where a stem occurs first in a text (`Substitution.FirstAt`), what is a reference in front of a
text (`Reference.Reads`), and what makes one faulty (`Faulty`). The search for a stem finds the
first occurrence, and what lies behind it is a reference, which is read with its whole name, or is
faulty, which is reported (`reads_or_faulty`).
-/

namespace GraphStore.Substitution

/-! ### First occurrences -/

/-- The first occurrence of a stem in a text lies behind `front`. -/
structure FirstAt (stem text front : List Char) : Prop where
  occurs : front ++ stem <+: text
  first : ∀ other, other ++ stem <+: text → front.length ≤ other.length

section Search

variable {stem text front behind : List Char}

theorem splitAtFirst_eq_none : splitAtFirst stem text = none ↔ ¬ stem <:+: text := by
  induction text with
  | nil => cases stem <;> simp [splitAtFirst]
  | cons char rest inductionHypothesis =>
      rw [splitAtFirst, List.infix_cons_iff]
      by_cases here : stem <+: char :: rest
      · simp [here]
      · simp [here, inductionHypothesis]

theorem firstAt_of_splitAtFirst (found : splitAtFirst stem text = some (front, behind)) :
    text = front ++ (stem ++ behind) ∧ FirstAt stem text front := by
  induction text generalizing front with
  | nil =>
      cases stem with
      | nil =>
          obtain ⟨rfl, rfl⟩ := Prod.mk.inj (Option.some.inj found)
          exact ⟨rfl, List.nil_prefix, fun _ _ => Nat.zero_le _⟩
      | cons char stem => simp [splitAtFirst] at found
  | cons char rest inductionHypothesis =>
      rw [splitAtFirst] at found
      by_cases here : stem <+: char :: rest
      · rw [if_pos (List.isPrefixOf_iff_prefix.2 here)] at found
        obtain ⟨rfl, rfl⟩ := Prod.mk.inj (Option.some.inj found)
        exact ⟨(List.prefix_iff_eq_append.1 here).symm, here, fun _ _ => Nat.zero_le _⟩
      · rw [if_neg (mt List.isPrefixOf_iff_prefix.1 here)] at found
        obtain ⟨⟨front, behind⟩, later, same⟩ := Option.map_eq_some_iff.1 found
        obtain ⟨rfl, rfl⟩ := Prod.mk.inj same
        obtain ⟨split, occurs, first⟩ := inductionHypothesis later
        refine ⟨congrArg (char :: ·) split, (List.prefix_cons_inj char).2 occurs, ?_⟩
        intro other occursThere
        cases other with
        | nil => exact absurd occursThere here
        | cons start other =>
            have inRest := (List.cons_prefix_cons.1 occursThere).2
            exact Nat.succ_le_succ (first other inRest)

/-- The search finds the first occurrence. -/
theorem splitAtFirst_of_firstAt (first : FirstAt stem (front ++ (stem ++ behind)) front) :
    splitAtFirst stem (front ++ (stem ++ behind)) = some (front, behind) := by
  cases found : splitAtFirst stem (front ++ (stem ++ behind)) with
  | none =>
      have inside : stem <:+: front ++ (stem ++ behind) := ⟨front, behind, List.append_assoc ..⟩
      exact absurd inside (splitAtFirst_eq_none.1 found)
  | some parts =>
      obtain ⟨before, rest⟩ := parts
      obtain ⟨split, other⟩ := firstAt_of_splitAtFirst found
      have length : before.length = front.length :=
        Nat.le_antisymm (other.first front first.occurs) (first.first before other.occurs)
      obtain ⟨rfl, same⟩ := List.append_inj split.symm length
      rw [List.append_cancel_left same]

theorem firstAt_iff :
    FirstAt stem text front ↔ (splitAtFirst stem text).map Prod.fst = some front := by
  constructor
  · intro first
    obtain ⟨behind, rfl⟩ := first.occurs
    rw [List.append_assoc] at first ⊢
    rw [splitAtFirst_of_firstAt first]
    rfl
  · intro found
    obtain ⟨parts, split, rfl⟩ := Option.map_eq_some_iff.1 found
    exact (firstAt_of_splitAtFirst split).2

instance : Decidable (FirstAt stem text front) := decidable_of_iff _ firstAt_iff.symm

end Search

/-! ### Single references -/

inductive Reference where
  | word (name : List Char)
  | quoted (name : List Char)
deriving DecidableEq

namespace Reference

def name : Reference → List Char
  | word name => name
  | quoted name => name

def text : Reference → List Char
  | word name => name
  | quoted name => '"' :: (name ++ ['"'])

/-- In front of `rest` the reference ends where it ends: a word is a longest run of word characters
and not empty, a quoted name has no quote inside and is not blank. -/
def Reads (rest : List Char) : Reference → Prop
  | word name => name ≠ [] ∧ (∀ char ∈ name, isWordChar char = true) ∧
      ∀ char ∈ rest.head?, isWordChar char = false
  | quoted name => '"' ∉ name ∧ ∃ char ∈ name, Text.isBlank char = false

-- The membership tests are named: a search could also find the test of every character.
instance (rest : List Char) : (reference : Reference) → Decidable (reference.Reads rest)
  | word name =>
    have : Decidable (∀ char ∈ name, isWordChar char = true) := List.decidableBAll _ name
    have : Decidable (∀ char ∈ rest.head?, isWordChar char = false) :=
      Option.decidableForallMem rest.head?
    inferInstanceAs (Decidable (name ≠ [] ∧ (∀ char ∈ name, isWordChar char = true) ∧
      ∀ char ∈ rest.head?, isWordChar char = false))
  | quoted name =>
    have : Decidable (∃ char ∈ name, Text.isBlank char = false) := List.decidableBEx _ name
    inferInstanceAs (Decidable ('"' ∉ name ∧ ∃ char ∈ name, Text.isBlank char = false))

end Reference

/-- A reference is not empty. -/
theorem Reference.length_text_pos {reference : Reference} {rest : List Char}
    (reads : reference.Reads rest) : 0 < reference.text.length := by
  cases reference with
  | word name => exact List.length_pos_iff.2 reads.1
  | quoted name => simp [text]

inductive Fault where
  | blank
  | unclosed
deriving DecidableEq

def Fault.misuse (position : Nat) : Fault → Misuse
  | blank => .emptyReference position
  | unclosed => .unclosedQuote position

/-- Behind a stem there is no name, or a blank one, or one whose quote is not closed. -/
inductive Faulty : Fault → List Char → Prop where
  | noName {text : List Char}
      (nothing : ∀ char ∈ text.head?, char ≠ '"' ∧ isWordChar char = false) : Faulty .blank text
  | blankName {name rest : List Char} (unquoted : '"' ∉ name)
      (blank : ∀ char ∈ name, Text.isBlank char = true) :
      Faulty .blank ('"' :: (name ++ '"' :: rest))
  | openName {text : List Char} (unquoted : '"' ∉ text) : Faulty .unclosed ('"' :: text)

/-! ### Characters -/

theorem blank_disjoint_alphanumeric : ∀ blank ∈ Text.blankRanges,
    ∀ range ∈ Text.alphanumericRanges, blank.2 < range.1 ∨ range.2 < blank.1 := by
  decide +kernel

/-- No blank character is part of a word. -/
theorem isBlank_of_isWordChar {char : Char} (word : isWordChar char = true) :
    Text.isBlank char = false := by
  rw [isWordChar, Bool.or_eq_true, decide_eq_true_iff] at word
  rcases word with alphanumeric | rfl
  · rw [Text.isAlphanumeric, Text.CodePointRanges.contains, List.any_eq_true] at alphanumeric
    obtain ⟨range, listed, within⟩ := alphanumeric
    rw [Bool.and_eq_true, decide_eq_true_iff, decide_eq_true_iff] at within
    rw [Text.isBlank, Text.CodePointRanges.contains, List.any_eq_false]
    intro blank member inside
    rw [Bool.and_eq_true, decide_eq_true_iff, decide_eq_true_iff] at inside
    have apart := blank_disjoint_alphanumeric blank member range listed
    omega
  · decide

theorem ne_quote_of_isWordChar {char : Char} (word : isWordChar char = true) : char ≠ '"' := by
  rintro rfl
  exact absurd word (by decide +kernel)

/-! ### Reading -/

section Runs

variable {keep : Char → Bool} {name rest : List Char} (all : ∀ char ∈ name, keep char = true)
  (ended : ∀ char ∈ rest.head?, keep char = false)
include all ended

theorem takeWhile_of_run : (name ++ rest).takeWhile keep = name := by
  rw [List.takeWhile_append_of_pos all]
  cases rest with
  | nil => simp
  | cons char rest => simp [ended char rfl]

theorem dropWhile_of_run : (name ++ rest).dropWhile keep = rest := by
  rw [List.dropWhile_append_of_pos all]
  cases rest with
  | nil => simp
  | cons char rest => simp [ended char rfl]

end Runs

section Names

variable {name rest : List Char} (position : Nat)

theorem readName_of_noQuote {text : List Char} (start : ∀ char ∈ text.head?, char ≠ '"') :
    readName position text = .ok (text.takeWhile isWordChar, text.dropWhile isWordChar) := by
  unfold readName
  split
  · exact absurd rfl (start '"' rfl)
  · rfl

theorem ne_quote_of_unquoted {text : List Char} (unquoted : '"' ∉ text) :
    ∀ char ∈ text, decide (char ≠ '"') = true := by
  intro char member
  have apart : char ≠ '"' := fun same => unquoted (same ▸ member)
  simpa using apart

theorem readName_of_quoted (unquoted : '"' ∉ name) :
    readName position ('"' :: (name ++ '"' :: rest)) = .ok (name, rest) := by
  have inside := ne_quote_of_unquoted unquoted
  have ended : ∀ char ∈ ('"' :: rest).head?, decide (char ≠ '"') = false := by simp
  rw [readName, dropWhile_of_run inside ended, takeWhile_of_run inside ended]

theorem readName_of_open {text : List Char} (unquoted : '"' ∉ text) :
    readName position ('"' :: text) = .error (.invalidArgument (.unclosedQuote position)) := by
  have nothing : text.dropWhile (fun char => decide (char ≠ '"')) = [] :=
    List.dropWhile_eq_nil_iff.2 (ne_quote_of_unquoted unquoted)
  rw [readName, nothing]

theorem readReference_of_readName {text : List Char}
    (read : readName position text = .ok (name, rest)) :
    readReference position text =
      if name.all Text.isBlank then .error (.invalidArgument (.emptyReference position))
      else .ok (name, rest) := by
  rw [readReference, read]
  show (if _ then _ else _) = _
  split <;> rfl

/-- A reference is read with its whole name. -/
theorem readReference_of_reads {reference : Reference} (reads : reference.Reads rest) :
    readReference position (reference.text ++ rest) = .ok (reference.name, rest) := by
  cases reference with
  | word name =>
      obtain ⟨filled, word, ended⟩ := reads
      obtain ⟨char, others, rfl⟩ := List.exists_cons_of_ne_nil filled
      have startsWord : isWordChar char = true := word char List.mem_cons_self
      have noQuote : ∀ start ∈ (char :: others ++ rest).head?, start ≠ '"' := by
        simpa using ne_quote_of_isWordChar startsWord
      have read := readName_of_noQuote position noQuote
      rw [takeWhile_of_run word ended, dropWhile_of_run word ended] at read
      rw [Reference.text, readReference_of_readName position read, if_neg]
      · rfl
      · simp [isBlank_of_isWordChar startsWord]
  | quoted name =>
      obtain ⟨unquoted, visible⟩ := reads
      have read : readName position ('"' :: (name ++ '"' :: rest)) = .ok (name, rest) :=
        readName_of_quoted position unquoted
      have parts : (Reference.quoted name).text ++ rest = '"' :: (name ++ '"' :: rest) := by
        simp [Reference.text]
      rw [parts, readReference_of_readName position read, if_neg]
      · rfl
      · obtain ⟨char, member, notBlank⟩ := visible
        intro blank
        rw [List.all_eq_true.1 blank char member] at notBlank
        cases notBlank

/-- A faulty reference is reported. -/
theorem readReference_of_faulty {fault : Fault} {text : List Char} (faulty : Faulty fault text) :
    readReference position text = .error (.invalidArgument (fault.misuse position)) := by
  cases faulty with
  | noName nothing =>
      have read := readName_of_noQuote position fun char start => (nothing char start).1
      have none : text.takeWhile isWordChar = [] := by
        cases text with
        | nil => rfl
        | cons char text => simp [(nothing char rfl).2]
      rw [none] at read
      rw [readReference_of_readName position read]
      rfl
  | blankName unquoted blank =>
      rw [readReference_of_readName position (readName_of_quoted position unquoted), if_pos]
      · rfl
      · exact List.all_eq_true.2 blank
  | openName unquoted =>
      rw [readReference, readName_of_open position unquoted]
      rfl

end Names

/-- What lies behind a stem is a reference or faulty. -/
theorem reads_or_faulty (text : List Char) :
    (∃ reference rest, text = Reference.text reference ++ rest ∧ reference.Reads rest) ∨
      ∃ fault, Faulty fault text := by
  cases text with
  | nil => exact Or.inr ⟨.blank, .noName nofun⟩
  | cons char text =>
      by_cases quote : char = '"'
      · subst quote
        by_cases closed : '"' ∈ text
        · obtain ⟨name, rest, rfl, unquoted⟩ := List.eq_append_cons_of_mem closed
          by_cases visible : ∃ char ∈ name, Text.isBlank char = false
          · exact Or.inl ⟨.quoted name, rest, by simp [Reference.text], unquoted, visible⟩
          · refine Or.inr ⟨.blank, .blankName unquoted fun char member => ?_⟩
            cases blank : Text.isBlank char with
            | true => rfl
            | false => exact absurd ⟨char, member, blank⟩ visible
        · exact Or.inr ⟨.unclosed, .openName closed⟩
      · cases word : isWordChar char with
        | false => exact Or.inr ⟨.blank, .noName (by simpa using ⟨quote, word⟩)⟩
        | true =>
            refine Or.inl ⟨.word ((char :: text).takeWhile isWordChar),
              (char :: text).dropWhile isWordChar, ?_, ?_, ?_, ?_⟩
            · exact List.takeWhile_append_dropWhile.symm
            · simp [word]
            · intro other member
              exact List.mem_takeWhile_imp member
            · intro other start
              have ended := List.head?_dropWhile_not isWordChar (char :: text)
              rw [Option.mem_def.1 start] at ended
              exact ended

end GraphStore.Substitution
