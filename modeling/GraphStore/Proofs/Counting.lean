import GraphStore.Proofs.Action

/-!
Contract: operations that run beside a count.

Owns the two ways to run an operation beside a count, which goes up by one (`counted`) or stays
(`uncounted`), and the relation to the operation without it (`Erases`). A count is bounded by what
pays for it: an operation that succeeds lowers a measure, and what it gains may be counted
(`Lowers.counted`) or pay for a later failure (`Lowers.bind`).
-/

namespace GraphStore.Action

variable {σ α β : Type}

/-- The operation, counted whatever comes of it. -/
def counted (action : Action σ α) : Action (Nat × σ) α :=
  Action.of fun world => ((action world.2).1, (world.1 + 1, (action world.2).2))

/-- The operation beside a count that it leaves alone. -/
def uncounted (action : Action σ α) : Action (Nat × σ) α :=
  Action.of fun world => ((action world.2).1, (world.1, (action world.2).2))

/-! ### Without the count -/

/-- Without its count the run is the plain operation. -/
def Erases (run : Action (Nat × σ) α) (plain : Action σ α) : Prop :=
  ∀ world, plain world.2 = ((run world).1, (run world).2.2)

theorem erases_counted (plain : Action σ α) : plain.counted.Erases plain := fun _ => rfl

theorem erases_uncounted (plain : Action σ α) : plain.uncounted.Erases plain := fun _ => rfl

theorem erases_pure (answer : α) : Erases (pure answer) (pure answer : Action σ α) := fun _ => rfl

/-- Runs in sequence erase to what they erase to. -/
theorem Erases.bind {first : Action (Nat × σ) α} {plainFirst : Action σ α}
    {next : α → Action (Nat × σ) β} {plainNext : α → Action σ β} (erases : first.Erases plainFirst)
    (erasesNext : ∀ answer, (next answer).Erases (plainNext answer)) :
    (first >>= next).Erases (plainFirst >>= plainNext) := by
  intro world
  have plain := erases world
  rcases ran : first world with ⟨failure | answer, after⟩
  · rw [ran] at plain
    rw [bind_of_error plain, bind_of_error ran]
  · rw [ran] at plain
    rw [bind_of_ok plain, bind_of_ok ran]
    exact erasesNext answer after

/-! ### What pays for the count -/

/-- Where the operation succeeds it lowers the measure by `least` at least, and where it fails it
raises the measure by `excess` at most. -/
structure Lowers (measure : σ → Nat) (action : Action σ α) (least excess : Nat) : Prop where
  answered : ∀ state answer after, action state = (.ok answer, after) →
    measure after + least ≤ measure state
  failed : ∀ state failure after, action state = (.error failure, after) →
    measure after ≤ measure state + excess

namespace Lowers

variable {measure : σ → Nat} {action : Action σ α} {least excess : Nat}

/-- An operation that never raises the measure. -/
theorem of_le (keeps : ∀ state, measure (action state).2 ≤ measure state) :
    Lowers measure action 0 0 := by
  constructor
  · intro state answer after ran
    have bound := keeps state
    rwa [ran] at bound
  · intro state failure after ran
    have bound := keeps state
    rwa [ran] at bound

theorem pure (answer : α) : Lowers measure (Pure.pure answer) 0 0 :=
  of_le fun state => Nat.le_refl (measure state)

/-- Lowering by more, or raising by less, is as good. -/
theorem weaken {fewer more : Nat} (lowers : Lowers measure action least excess)
    (atLeast : fewer ≤ least) (atMost : excess ≤ more) : Lowers measure action fewer more := by
  constructor
  · intro state answer after ran
    have lower := lowers.answered state answer after ran
    omega
  · intro state failure after ran
    have higher := lowers.failed state failure after ran
    omega

/-- What the first operation gains pays for a failure of the second one. -/
theorem bind {next : α → Action σ β} {leastNext excessNext : Nat}
    (lowers : Lowers measure action least excess)
    (lowersNext : ∀ answer, Lowers measure (next answer) leastNext excessNext) :
    Lowers measure (action >>= next) (least + leastNext) (max excess (excessNext - least)) := by
  constructor
  · intro state answer after ran
    obtain ⟨found, middle, ranFirst, ranNext⟩ := bind_eq_ok.1 ran
    have first := lowers.answered state found middle ranFirst
    have second := (lowersNext found).answered middle answer after ranNext
    omega
  · intro state failure after ran
    rcases ranFirst : action state with ⟨broken | found, middle⟩
    · rw [bind_of_error ranFirst] at ran
      obtain ⟨-, rfl⟩ := Prod.mk.inj ran
      have first := lowers.failed state broken middle ranFirst
      omega
    · rw [bind_of_ok ranFirst] at ran
      have first := lowers.answered state found middle ranFirst
      have second := (lowersNext found).failed middle failure after ran
      omega

def beside (measure : σ → Nat) (world : Nat × σ) : Nat := world.1 + measure world.2

/-- What is added to the count is taken from what the operation gains. -/
theorem beside_of_adds (added : Nat) {run : Action (Nat × σ) α}
    (adds : ∀ world, run world = ((action world.2).1, (world.1 + added, (action world.2).2)))
    (lowers : Lowers measure action (least + added) excess) :
    Lowers (beside measure) run least (excess + added) := by
  constructor
  · intro world answer after ran
    rw [adds] at ran
    obtain ⟨answered, rfl⟩ := Prod.mk.inj ran
    have lower := lowers.answered world.2 answer (action world.2).2 (Prod.ext answered rfl)
    show world.1 + added + measure (action world.2).2 + least ≤ world.1 + measure world.2
    omega
  · intro world failure after ran
    rw [adds] at ran
    obtain ⟨failed, rfl⟩ := Prod.mk.inj ran
    have higher := lowers.failed world.2 failure (action world.2).2 (Prod.ext failed rfl)
    show world.1 + added + measure (action world.2).2 ≤ world.1 + measure world.2 + (excess + added)
    omega

/-- An operation that is not counted does to the sum what it does to the measure. -/
theorem uncounted (lowers : Lowers measure action least excess) :
    Lowers (beside measure) action.uncounted least excess :=
  beside_of_adds 0 (fun _ => rfl) lowers

/-- A counted operation pays for its count with the measure that it lowers. -/
theorem counted (lowers : Lowers measure action (least + 1) excess) :
    Lowers (beside measure) action.counted least (excess + 1) :=
  beside_of_adds 1 (fun _ => rfl) lowers

end Lowers

end GraphStore.Action
