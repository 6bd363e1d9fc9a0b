import GraphStore.Error
import Mathlib.Data.List.Basic

/-!
Contract: when steps in sequence succeed.

Owns the answers of a step behind another one (`bind_eq_ok`) and of one step for each member of a
list (`mem_of_mapM`, `mapM_of_ok`), and what a list is around the last of some members.
-/

namespace GraphStore

/-- Of the members with a property, one is the last. -/
theorem exists_last {α : Type} {holds : α → Prop} {members : List α}
    (some : ∃ member ∈ members, holds member) : ∃ front last back,
      members = front ++ last :: back ∧ holds last ∧ ∀ later ∈ back, ¬ holds later := by
  induction members with
  | nil =>
      obtain ⟨member, listed, -⟩ := some
      exact nomatch listed
  | cons first members inductionHypothesis =>
      by_cases later : ∃ member ∈ members, holds member
      · obtain ⟨front, last, back, rfl, own, none⟩ := inductionHypothesis later
        exact ⟨first :: front, last, back, rfl, own, none⟩
      · obtain ⟨member, listed, own⟩ := some
        rcases List.mem_cons.1 listed with rfl | inTail
        · exact ⟨[], member, members, rfl, own, fun other inTail holds =>
            later ⟨other, inTail, holds⟩⟩
        · exact absurd ⟨member, inTail, own⟩ later

namespace Result

variable {α β : Type} {step : α → Result β}

/-- A step behind another one succeeds from the answer of the first. -/
theorem bind_eq_ok {found : Result α} {answer : β} :
    (found >>= step) = .ok answer ↔ ∃ between, found = .ok between ∧ step between = .ok answer := by
  cases found <;> simp [bind, Except.bind]

/-- A list answers with the answer of its first member and those of the others. -/
theorem mapM_cons_eq_ok {member : α} {members : List α} {answers : List β} :
    (member :: members).mapM step = .ok answers ↔ ∃ first others, step member = .ok first ∧
      members.mapM step = .ok others ∧ answers = first :: others := by
  rw [List.mapM_cons]
  constructor
  · intro ran
    obtain ⟨first, own, ran⟩ := bind_eq_ok.1 ran
    obtain ⟨others, rest, ran⟩ := bind_eq_ok.1 ran
    exact ⟨first, others, own, rest, (Except.ok.inj ran).symm⟩
  · rintro ⟨first, others, own, rest, rfl⟩
    exact bind_eq_ok.2 ⟨first, own, bind_eq_ok.2 ⟨others, rest, rfl⟩⟩

/-- The answers are those of the members. -/
theorem mem_of_mapM {members : List α} {answers : List β} (ran : members.mapM step = .ok answers)
    {answer : β} : answer ∈ answers ↔ ∃ member ∈ members, step member = .ok answer := by
  induction members generalizing answers with
  | nil =>
      obtain rfl := Except.ok.inj ran
      simp
  | cons member members inductionHypothesis =>
      obtain ⟨first, others, own, rest, rfl⟩ := mapM_cons_eq_ok.1 ran
      rw [List.mem_cons, inductionHypothesis rest, List.exists_mem_cons_iff, own, Except.ok.injEq,
        eq_comm]

theorem ok_of_mapM {members : List α} {answers : List β} (ran : members.mapM step = .ok answers)
    {member : α} (listed : member ∈ members) : ∃ answer, step member = .ok answer := by
  induction members generalizing answers with
  | nil => exact nomatch listed
  | cons first members inductionHypothesis =>
      obtain ⟨answer, others, own, rest, -⟩ := mapM_cons_eq_ok.1 ran
      rcases List.mem_cons.1 listed with rfl | later
      · exact ⟨answer, own⟩
      · exact inductionHypothesis rest later

/-- If the step succeeds for every member, it succeeds for the list. -/
theorem mapM_of_ok {members : List α} (succeeds : ∀ member ∈ members,
    ∃ answer, step member = .ok answer) : ∃ answers, members.mapM step = .ok answers := by
  induction members with
  | nil => exact ⟨[], rfl⟩
  | cons member members inductionHypothesis =>
      obtain ⟨first, own⟩ := succeeds member List.mem_cons_self
      obtain ⟨others, rest⟩ := inductionHypothesis fun other listed =>
        succeeds other (List.mem_cons_of_mem _ listed)
      exact ⟨first :: others, mapM_cons_eq_ok.2 ⟨first, others, own, rest, rfl⟩⟩

/-- Answers are in order as the members are. -/
theorem pairwise_of_mapM {before : α → α → Prop} {less : β → β → Prop} {members : List α}
    {answers : List β} (ran : members.mapM step = .ok answers) (ordered : members.Pairwise before)
    (keeps : ∀ left ∈ members, ∀ right ∈ members, before left right → ∀ first second,
      step left = .ok first → step right = .ok second → less first second) :
    answers.Pairwise less := by
  induction members generalizing answers with
  | nil =>
      obtain rfl := Except.ok.inj ran
      exact .nil
  | cons member members inductionHypothesis =>
      obtain ⟨first, others, own, rest, rfl⟩ := mapM_cons_eq_ok.1 ran
      obtain ⟨inFront, ordered⟩ := List.pairwise_cons.1 ordered
      refine .cons ?_ (inductionHypothesis rest ordered fun left listed right rightListed =>
        keeps left (List.mem_cons_of_mem _ listed) right (List.mem_cons_of_mem _ rightListed))
      intro second answered
      obtain ⟨other, listed, stepped⟩ := (mem_of_mapM rest).1 answered
      exact keeps member List.mem_cons_self other (List.mem_cons_of_mem _ listed)
        (inFront other listed) first second own stepped

/-- The answers of a list on both sides of one of its members. -/
theorem mapM_split {front back : List α} {member : α} {answers : List β}
    (ran : (front ++ member :: back).mapM step = .ok answers) :
    ∃ frontAnswers answer backAnswers, answers = frontAnswers ++ answer :: backAnswers ∧
      front.mapM step = .ok frontAnswers ∧ step member = .ok answer ∧
      back.mapM step = .ok backAnswers := by
  rw [List.mapM_append] at ran
  obtain ⟨frontAnswers, inFront, ran⟩ := bind_eq_ok.1 ran
  obtain ⟨answers, behind, ran⟩ := bind_eq_ok.1 ran
  obtain ⟨answer, backAnswers, own, inBack, rfl⟩ := mapM_cons_eq_ok.1 behind
  exact ⟨frontAnswers, answer, backAnswers, (Except.ok.inj ran).symm, inFront, own, inBack⟩

end Result

end GraphStore
