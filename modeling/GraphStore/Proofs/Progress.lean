import GraphStore.Proofs.Action

/-!
Contract: operations that work off a plan and may stop at a failure.

Owns what it means that an operation has carried out a front of a plan, all of it when it
succeeds (`Progress.Follows`), and how this passes from operations to sequences of them. Where
nothing can fail, as the state shows, the operation succeeds.
-/

namespace GraphStore

/-- What a state shows, and what the items of a plan make of it. -/
structure Progress (σ α : Type) where
  Shown : Type
  shown : σ → Shown
  advance : List α → Shown → Shown
  advance_nil : ∀ before, advance [] before = before
  advance_append : ∀ front back before,
    advance (front ++ back) before = advance back (advance front before)
  /-- Nothing can fail. -/
  sure : Shown → Prop
  sure_advance : ∀ front before, sure before → sure (advance front before)

namespace Progress

variable {σ α : Type} {progress : Progress σ α}

/-- A front of the plan has been carried out, and nothing else has changed. -/
def Reaches (progress : Progress σ α) (before : σ) (plan : List α) (after : σ) : Prop :=
  ∃ front, front <+: plan ∧
    progress.shown after = progress.advance front (progress.shown before)

/-- The operation carries out a front of the plan, and all of it when it succeeds; it does succeed
where nothing can fail. -/
def Follows (progress : Progress σ α) (action : Action σ Unit) (before : σ) (plan : List α) :
    Prop :=
  ∃ outcome after front, action before = (outcome, after) ∧ front <+: plan ∧
    progress.shown after = progress.advance front (progress.shown before) ∧
    (outcome = .ok () → front = plan) ∧ (progress.sure (progress.shown before) → outcome = .ok ())

theorem Reaches.refl (before : σ) (plan : List α) : progress.Reaches before plan before :=
  ⟨[], List.nil_prefix, (progress.advance_nil _).symm⟩

namespace Follows

variable {action other next : Action σ Unit} {before : σ} {front back plan : List α}

theorem of_eq (same : other before = action before)
    (follows : progress.Follows action before plan) : progress.Follows other before plan := by
  obtain ⟨outcome, after, front, ran, result⟩ := follows
  exact ⟨outcome, after, front, same.trans ran, result⟩

theorem nothing (before : σ) : progress.Follows (return ()) before [] :=
  ⟨.ok (), before, [], rfl, List.nil_prefix, (progress.advance_nil _).symm, fun _ => rfl,
    fun _ => rfl⟩

/-- An operation that fails without a change follows any plan where no success is promised. -/
theorem failed {failure : StoreError} (failed : action before = (.error failure, before))
    (unsure : ¬ progress.sure (progress.shown before)) : progress.Follows action before plan :=
  ⟨_, before, [], failed, List.nil_prefix, (progress.advance_nil _).symm, nofun,
    fun sure => absurd sure unsure⟩

/-- Renaming the failure leaves the progress as it is. -/
theorem mapError (follows : progress.Follows action before plan)
    (change : StoreError → StoreError) :
    progress.Follows (action.mapError change) before plan := by
  obtain ⟨outcome, after, front, ran, isFront, shown, complete, succeeds⟩ := follows
  cases outcome with
  | ok done =>
      exact ⟨_, after, front, Action.mapError_of_ok ran, isFront, shown, complete, succeeds⟩
  | error failure =>
      exact ⟨_, after, front, Action.mapError_of_error ran, isFront, shown, nofun,
        fun sure => absurd (succeeds sure) nofun⟩

/-- Two operations in a row follow one plan and then the other. -/
theorem andThen (first : progress.Follows action before front)
    (second : ∀ after, action before = (.ok (), after) →
      progress.shown after = progress.advance front (progress.shown before) →
      progress.Follows next after back) :
    progress.Follows (action >>= fun _ => next) before (front ++ back) := by
  obtain ⟨outcome, middle, done, ran, isFront, shown, complete, succeeds⟩ := first
  cases outcome with
  | error failure =>
      exact ⟨_, middle, done, Action.bind_of_error ran,
        isFront.trans (List.prefix_append front back), shown, nofun,
        fun sure => absurd (succeeds sure) nofun⟩
  | ok finished =>
      obtain rfl := complete rfl
      obtain ⟨outcome, after, doneNext, ranNext, isFrontNext, shownNext, completeNext,
        succeedsNext⟩ := second middle ran shown
      refine ⟨outcome, after, done ++ doneNext, (Action.bind_of_ok ran).trans ranNext,
        (List.prefix_append_right_inj done).2 isFrontNext, ?_, fun succeeded => ?_, fun sure => ?_⟩
      · rw [shownNext, shown, progress.advance_append]
      · rw [completeNext succeeded]
      · exact succeedsNext (shown ▸ progress.sure_advance done _ sure)

/-- An operation that follows a plan reaches a front of it. -/
theorem reaches (follows : progress.Follows action before plan) :
    progress.Reaches before plan (action before).2 := by
  obtain ⟨outcome, after, front, ran, isFront, shown, -⟩ := follows
  rw [ran]
  exact ⟨front, isFront, shown⟩

/-- Where less of the state is shown, the plan is still followed. -/
theorem through {other : Progress σ α} (follows : progress.Follows action before plan)
    (part : progress.Shown → other.Shown)
    (shown : ∀ state, other.shown state = part (progress.shown state))
    (advance : ∀ items seen, other.advance items (part seen) = part (progress.advance items seen))
    (sure : ∀ seen, other.sure (part seen) → progress.sure seen) :
    other.Follows action before plan := by
  obtain ⟨outcome, after, front, ran, isFront, reached, complete, succeeds⟩ := follows
  refine ⟨outcome, after, front, ran, isFront, ?_, complete, fun isSure => ?_⟩
  · rw [shown, reached, shown, advance]
  · rw [shown] at isSure
    exact succeeds (sure _ isSure)

/-- A successful operation has carried out the whole plan. -/
theorem shown_of_ok (follows : progress.Follows action before plan) {after : σ}
    (succeeded : action before = (.ok (), after)) :
    progress.shown after = progress.advance plan (progress.shown before) := by
  obtain ⟨outcome, reached, front, ran, -, shown, complete, -⟩ := follows
  rw [succeeded] at ran
  obtain ⟨rfl, rfl⟩ := Prod.mk.inj ran
  rw [shown, complete rfl]

end Follows

end Progress

end GraphStore
