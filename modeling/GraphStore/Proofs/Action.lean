import GraphStore.Action

/-!
Contract: how operations run step by step.

Owns the equations of sequencing, of the basic steps and of the ways to run an operation
inside a larger state. With them an operation is followed along the outcomes of its steps,
and none of the monads underneath has to be opened. Of an operation whose steps need not be
followed it is enough to say what becomes of the part of the state that shows: it is left alone
(`Keeps`), or changed just when the operation succeeds (`Makes`).
-/

namespace GraphStore.Action

variable {σ τ ν α β : Type}

/-! ### Sequencing -/

/-- Behind a success the next operation goes on from the state that it has left. -/
theorem bind_of_ok {first : Action σ α} {next : α → Action σ β} {state after : σ} {answer : α}
    (succeeded : first state = (.ok answer, after)) :
    (first >>= next) state = next answer after := by
  show ExceptT.bindCont next (first state).1 (first state).2 = _
  rw [succeeded]
  rfl

/-- A failure ends what is in sequence, and what has been done stays done. -/
theorem bind_of_error {first : Action σ α} {next : α → Action σ β} {state after : σ}
    {failure : StoreError} (failed : first state = (.error failure, after)) :
    (first >>= next) state = (.error failure, after) := by
  show ExceptT.bindCont next (first state).1 (first state).2 = _
  rw [failed]
  rfl

/-- A sequence succeeds if both of its steps do. -/
theorem bind_eq_ok {first : Action σ α} {next : α → Action σ β} {state after : σ} {answer : β} :
    (first >>= next) state = (.ok answer, after) ↔ ∃ found middle,
      first state = (.ok found, middle) ∧ next found middle = (.ok answer, after) := by
  constructor
  · intro succeeded
    rcases ran : first state with ⟨failure | found, middle⟩
    · rw [bind_of_error ran] at succeeded
      exact nomatch (Prod.mk.inj succeeded).1
    · rw [bind_of_ok ran] at succeeded
      exact ⟨found, middle, rfl, succeeded⟩
  · rintro ⟨found, middle, ran, succeeded⟩
    rw [bind_of_ok ran, succeeded]

theorem pure_eq_ok {given answer : α} {state after : σ} :
    (pure given : Action σ α) state = (.ok answer, after) ↔ given = answer ∧ state = after := by
  show (Except.ok given, state) = _ ↔ _
  rw [Prod.mk.injEq, Except.ok.injEq]

/-- A changed answer comes from the answer that was changed. -/
theorem map_eq_ok {first : Action σ α} {change : α → β} {state after : σ} {answer : β} :
    (change <$> first) state = (.ok answer, after) ↔
      ∃ found, first state = (.ok found, after) ∧ change found = answer := by
  rw [← bind_pure_comp, bind_eq_ok]
  constructor
  · rintro ⟨found, middle, ran, answered⟩
    obtain ⟨rfl, rfl⟩ := pure_eq_ok.1 answered
    exact ⟨found, ran, rfl⟩
  · rintro ⟨found, ran, rfl⟩
    exact ⟨found, after, ran, rfl⟩

/-- What follows a step and only changes its answer. -/
theorem bind_pure_apply (action : Action σ α) (change : α → β) (state : σ) :
    (action >>= fun answer => pure (change answer)) state =
      ((action state).1.map change, (action state).2) := by
  rcases ran : action state with ⟨_ | _, after⟩
  · rw [bind_of_error ran]
    rfl
  · rw [bind_of_ok ran]
    rfl

/-! ### Basic steps -/

@[simp] theorem pure_apply (answer : α) (state : σ) :
    (pure answer : Action σ α) state = (.ok answer, state) := rfl

@[simp] theorem get_apply (state : σ) : (get : Action σ σ) state = (.ok state, state) := rfl

@[simp] theorem set_apply (after state : σ) :
    (set after : Action σ PUnit) state = (.ok ⟨⟩, after) := rfl

@[simp] theorem modify_apply (change : σ → σ) (state : σ) :
    (modify change : Action σ Unit) state = (.ok (), change state) := rfl

@[simp] theorem throw_apply (failure : StoreError) (state : σ) :
    (throw failure : Action σ α) state = (.error failure, state) := rfl

@[simp] theorem ofResult_apply (result : Result α) (state : σ) :
    (ofResult result : Action σ α) state = (result, state) := rfl

@[simp] theorem get_bind (next : σ → Action σ β) (state : σ) :
    ((get : Action σ σ) >>= next) state = next state state := rfl

/-! ### Larger states and other errors -/

/-- An operation on a part answers as on the part, and its state goes back in place. -/
theorem within_apply (part : τ → σ) (replace : τ → σ → τ) (action : Action σ α) (whole : τ) :
    action.within part replace whole =
      ((action (part whole)).1, replace whole (action (part whole)).2) := rfl

theorem outcome_apply (action : Action σ α) (state : σ) :
    action.outcome state = (.ok (action state).1, (action state).2) := rfl

theorem mapError_of_ok {change : StoreError → StoreError} {action : Action σ α} {state after : σ}
    {answer : α} (succeeded : action state = (.ok answer, after)) :
    action.mapError change state = (.ok answer, after) := by
  rw [mapError, succeeded]

/-- Renaming touches the failure alone. -/
theorem mapError_of_error {change : StoreError → StoreError} {action : Action σ α}
    {state after : σ} {failure : StoreError} (failed : action state = (.error failure, after)) :
    action.mapError change state = (.error (change failure), after) := by
  rw [mapError, failed]

/-! ### What shows of the state -/

/-- Whatever its outcome, the operation leaves alone what shows. -/
def Keeps (shown : σ → ν) (action : Action σ α) : Prop :=
  ∀ state, shown (action state).2 = shown state

namespace Keeps

variable {shown : σ → ν}

theorem pure (answer : α) : Keeps shown (Pure.pure answer : Action σ α) := fun _ => rfl

theorem ofResult (result : Result α) : Keeps shown (Action.ofResult result : Action σ α) :=
  fun _ => rfl

/-- What two operations keep, they keep in sequence. -/
theorem bind {first : Action σ α} {next : α → Action σ β} (keeps : first.Keeps shown)
    (nextKeeps : ∀ answer, (next answer).Keeps shown) : (first >>= next).Keeps shown := by
  intro state
  have kept := keeps state
  rcases ran : first state with ⟨failure | answer, after⟩
  · rw [bind_of_error ran]
    rwa [ran] at kept
  · rw [bind_of_ok ran, nextKeeps answer after]
    rwa [ran] at kept

end Keeps

/-- What shows is changed if the operation succeeds, and left alone if it fails. -/
structure Makes (shown : σ → ν) (change : ν → ν) (action : Action σ Unit) : Prop where
  made : ∀ {state after}, action state = (.ok (), after) → shown after = change (shown state)
  unmade : ∀ {state failure after}, action state = (.error failure, after) →
    shown after = shown state

namespace Makes

variable {shown : σ → ν} {change : ν → ν}

theorem of_modify {step : σ → σ} (changes : ∀ state, shown (step state) = change (shown state)) :
    Makes shown change (modify step) where
  made ran := by
    obtain rfl := congrArg Prod.snd ran
    exact changes _
  unmade ran := nomatch congrArg Prod.fst ran

/-- What comes before and keeps what shows may fail. -/
theorem behind {first : Action σ α} {next : Action σ Unit} (keeps : first.Keeps shown)
    (makes : next.Makes shown change) : Makes shown change (first >>= fun _ => next) := by
  constructor
  · intro state after ran
    obtain ⟨answer, middle, ranFirst, ranNext⟩ := bind_eq_ok.1 ran
    have kept := keeps state
    rw [ranFirst] at kept
    rw [makes.made ranNext, kept]
  · intro state failure after ran
    have kept := keeps state
    rcases ranFirst : first state with ⟨other | answer, middle⟩
    · rw [bind_of_error ranFirst] at ran
      obtain ⟨-, rfl⟩ := Prod.mk.inj ran
      rwa [ranFirst] at kept
    · rw [bind_of_ok ranFirst] at ran
      rw [ranFirst] at kept
      rw [makes.unmade ran, kept]

end Makes

end GraphStore.Action
