import GraphStore.Manager.Basic

/-!
Contract: parts of a larger state.

Owns the pair of a view and a replacement with the laws that make it a part: what was
put in is seen, putting back what is seen changes nothing, and a second replacement
forgets the first. Operations on a part run on the whole.
-/

namespace GraphStore

/-- A part of kind `σ` of states `τ`. -/
structure Part (τ σ : Type) where
  view : τ → σ
  replace : τ → σ → τ
  view_replace : ∀ whole part, view (replace whole part) = part := by intros; rfl
  replace_view : ∀ whole, replace whole (view whole) = whole := by intros; rfl
  replace_replace : ∀ whole first second,
    replace (replace whole first) second = replace whole second := by intros; rfl

namespace Part

variable {τ σ α : Type}

def whole : Part τ τ where
  view state := state
  replace _ part := part

def andThen {ρ : Type} (outer : Part τ σ) (inner : Part σ ρ) : Part τ ρ where
  view state := inner.view (outer.view state)
  replace state part := outer.replace state (inner.replace (outer.view state) part)
  view_replace state part := by rw [outer.view_replace, inner.view_replace]
  replace_view state := by rw [inner.replace_view, outer.replace_view]
  replace_replace state first second := by
    rw [outer.view_replace, outer.replace_replace, inner.replace_replace]

/-- An operation on the part, run on the whole. -/
def run (part : Part τ σ) (action : Action σ α) : Action τ α :=
  action.within part.view part.replace

def manager (part : Part τ σ) (manager : Manager σ) : Manager τ :=
  manager.within part.view part.replace

def read (part : Part τ σ) : Action τ σ := do return part.view (← get)

def change (part : Part τ σ) (step : σ → σ) : Action τ Unit :=
  modify fun state => part.replace state (step (part.view state))

end Part

end GraphStore
