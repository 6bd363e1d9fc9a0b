import GraphStore.Error

/-!
Contract: operations on a state that answer or fail.

Owns the type of such operations and the two ways to run them inside a larger state.
The state is kept in either outcome: what a failed operation has done stays done.
-/

namespace GraphStore

/-- An operation on a state `σ`. -/
abbrev Action (σ α : Type) := ExceptT StoreError (StateM σ) α

namespace Action

variable {σ τ α : Type}

/-- The outcome of an operation and the state it leaves. -/
def runOn (action : Action σ α) (state : σ) : Result α × σ := action state

/-- The operation with the given outcome for every state. -/
def of (step : σ → Result α × σ) : Action σ α := step

/-- Runs an operation on a part of a larger state. -/
def within (part : τ → σ) (replace : τ → σ → τ) (action : Action σ α) : Action τ α :=
  fun whole =>
    let (outcome, inner) := action (part whole)
    (outcome, replace whole inner)

/-- Answers with an outcome computed beforehand. -/
def ofResult (result : Result α) : Action σ α := fun state => (result, state)

/-- The outcome of an operation as an answer, so that a failure can be looked at. -/
def outcome (action : Action σ α) : Action σ (Result α) := fun state =>
  let (answer, state) := action state
  (.ok answer, state)

/-- Changes the error of a failed operation. -/
def mapError (change : StoreError → StoreError) (action : Action σ α) : Action σ α :=
  fun state =>
    match action state with
    | (.ok answer, state) => (.ok answer, state)
    | (.error failure, state) => (.error (change failure), state)

end Action

end GraphStore
