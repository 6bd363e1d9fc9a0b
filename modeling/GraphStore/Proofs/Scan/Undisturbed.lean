import GraphStore.Proofs.Scan.DisturbedKeys

/-!
Contract: walks over keys that nothing disturbs.

Owns the comparison of walks over two sources of pages that answer alike (`PageSource.Alike`). A
manager on states without changes to come is such a twin of the manager itself, so that walks over
both yield the same (`Manager.allKeys_disturbed`), and a walk over an open backend yields the first
rows of its table (`PagedBackend.allKeys_of_open`).
-/

namespace GraphStore

/-! ### Twins -/

/-- From related states two sources answer the same page or failure and leave related states. -/
def PageSource.Alike {σ τ : Type} (related : σ → τ → Prop) (fetch : PageSource σ)
    (other : PageSource τ) : Prop :=
  ∀ after size state twin, related state twin →
    (fetch after size state).1 = (other after size twin).1 ∧
      related (fetch after size state).2 (other after size twin).2

section Twins

variable {σ τ : Type} {related : σ → τ → Prop}

theorem Pager.next_of_alike {fetch : PageSource σ} {other : PageSource τ}
    (alike : PageSource.Alike related fetch other) (fuel : Nat) (pager : Pager) {state : σ}
    {twin : τ} (start : related state twin) :
    ∃ row after left right, pager.next fetch fuel state = (row, after, left) ∧
      pager.next other fuel twin = (row, after, right) ∧ related left right := by
  induction fuel generalizing pager state twin with
  | zero => exact ⟨none, pager, state, twin, rfl, rfl, start⟩
  | succ fuel inductionHypothesis =>
      cases limit : pager.selector.reachedLimit with
      | true => exact ⟨_, _, _, _, next_of_full limit, next_of_full limit, start⟩
      | false =>
      rcases draw_cases limit pager.buffered with ⟨_, row, back, _, _, _, drew⟩ | ⟨_, drew⟩
      · exact ⟨_, _, _, _, next_of_buffered limit drew, next_of_buffered limit drew, start⟩
      cases used : pager.exhausted with
      | true =>
          exact ⟨_, _, _, _, next_of_exhausted limit drew used, next_of_exhausted limit drew used,
            start⟩
      | false =>
      obtain ⟨same, between⟩ := alike pager.lastKey pager.pageSize state twin start
      rcases fetched : fetch pager.lastKey pager.pageSize state with ⟨outcome, left⟩
      rcases answered : other pager.lastKey pager.pageSize twin with ⟨answer, right⟩
      rw [fetched, answered] at same between
      obtain rfl : outcome = answer := same
      cases outcome with
      | error failure =>
          exact ⟨_, _, _, _, next_of_failed limit drew used fetched,
            next_of_failed limit drew used answered, between⟩
      | ok page =>
          rw [next_of_fetched limit drew used fetched, next_of_fetched limit drew used answered]
          cases page.isEmpty with
          | true => exact ⟨_, _, _, _, rfl, rfl, between⟩
          | false => exact inductionHypothesis _ between

theorem Manager.collect_of_alike {manager : Manager σ} {other : Manager τ} {store : StoreRef}
    {range : KeyRange} {slice : Slice}
    (alike : PageSource.Alike related (manager.scanPage store range slice)
      (other.scanPage store range slice))
    (counted : ∀ state twin, related state twin →
      manager.rowCount store state = other.rowCount store twin)
    (fuel : Nat) (found : List (Result KeyedRow)) (pager : Pager) {state : σ} {twin : τ}
    (start : related state twin) :
    ∃ rows left right,
      Scan.collect manager (ε := StoreError) (fun _ => return ()) fuel found
          ⟨store, range, slice, pager⟩ state = (.ok rows, left) ∧
        Scan.collect other (ε := StoreError) (fun _ => return ()) fuel found
          ⟨store, range, slice, pager⟩ twin = (.ok rows, right) ∧ related left right := by
  induction fuel generalizing found pager state twin with
  | zero => exact ⟨_, state, twin, rfl, rfl, start⟩
  | succ fuel inductionHypothesis =>
      obtain ⟨row, after, left, right, requested, answered, between⟩ :=
        Pager.next_of_alike alike (manager.rowCount store state + 2) pager start
      have moved : Scan.next manager ⟨store, range, slice, pager⟩ state =
          (row, ⟨store, range, slice, after⟩, left) := by
        simp only [Scan.next, requested]
      have twinMoved : Scan.next other ⟨store, range, slice, pager⟩ twin =
          (row, ⟨store, range, slice, after⟩, right) := by
        simp only [Scan.next, ← counted state twin start, answered]
      rw [collect_succ, collect_succ, moved, twinMoved]
      cases row with
      | none => exact ⟨_, left, right, rfl, rfl, between⟩
      | some row => exact inductionHypothesis _ after between

end Twins

/-! ### States without changes to come -/

section Undisturbed

variable {σ : Type} {manager : Manager σ}

/-- A state without changes to come, beside the state itself. -/
def Disturbed.Still (world : Disturbed σ) (state : σ) : Prop :=
  world.turns = [] ∧ world.state = state

theorem Manager.alike_disturbed (manager : Manager σ) (store : StoreRef) (range : KeyRange)
    (slice : Slice) :
    PageSource.Alike Disturbed.Still (manager.disturbed.scanPage store range slice)
      (manager.scanPage store range slice) := by
  intro after size world state still
  obtain ⟨turns, rfl⟩ := still
  have same := Disturbed.state_turn_of_nil turns after
  have none : (world.turn after).turns = [] := by simp [Disturbed.turn, turns]
  unfold Manager.disturbed
  dsimp only
  rw [same]
  exact ⟨rfl, none, rfl⟩

theorem Manager.rowCount_disturbed {store : StoreRef} {world : Disturbed σ} {state : σ}
    (still : world.Still state) :
    manager.disturbed.rowCount store world = manager.rowCount store state := by
  obtain ⟨turns, rfl⟩ := still
  show scanPageRows * world.turns.length + manager.rowCount store world.settled = _
  rw [Disturbed.settled_of_nil turns, turns, List.length_nil, Nat.mul_zero, Nat.zero_add]

/-- Without changes to come a walk yields what it yields without the wrapping. -/
theorem Manager.allKeys_disturbed (manager : Manager σ) (store : StoreRef) (range : KeyRange)
    (slice : Slice) (selector : Selector) (state : σ) :
    (manager.disturbed.allKeys store range slice selector (.new [] state)).1 =
      (manager.allKeys store range slice selector state).1 := by
  rcases started : manager.startScan store state with ⟨outcome, ready⟩
  have wrapped : manager.disturbed.startScan store (.new [] state) =
      (outcome, .new [] ready) := by
    show Action.within Disturbed.state (fun world state => { world with state := state })
      (manager.startScan store) (.new [] state) = _
    rw [Action.within_apply, show (Disturbed.new [] state).state = state from rfl, started]
    rfl
  cases outcome with
  | error failure =>
      have failed : manager.disturbed.allKeys store range slice selector (.new [] state) =
          (.error failure, .new [] ready) :=
        Action.bind_of_error (Action.bind_of_error wrapped)
      have alsoFailed : manager.allKeys store range slice selector state =
          (.error failure, ready) :=
        Action.bind_of_error (Action.bind_of_error started)
      rw [failed, alsoFailed]
  | ok done =>
      have begun : manager.disturbed.getKeys store range slice selector (.new [] state) =
          (.ok ⟨store, range, slice, Pager.new selector scanPageRows⟩, .new [] ready) :=
        Action.bind_of_ok wrapped
      have alsoBegun : manager.getKeys store range slice selector state =
          (.ok ⟨store, range, slice, Pager.new selector scanPageRows⟩, ready) :=
        Action.bind_of_ok started
      have still : (Disturbed.new [] ready).Still ready := ⟨rfl, rfl⟩
      obtain ⟨rows, left, right, collected, alsoCollected, -⟩ :=
        collect_of_alike (manager.alike_disturbed store range slice)
          (fun _ _ => rowCount_disturbed) (manager.rowCount store ready + 2) []
          (Pager.new selector scanPageRows) still
      rw [allKeys, Action.bind_of_ok begun, Action.get_bind, rowCount_disturbed still, collected,
        allKeys, Action.bind_of_ok alsoBegun, Action.get_bind, alsoCollected]

/-- A walk over an open backend yields the first rows of its table and changes nothing. -/
theorem PagedBackend.allKeys_of_open (backend : PagedBackend manager) {query : KeyQuery}
    {selector : Selector} (made : Selector.new query.filter query.limit = .ok selector) {state : σ}
    (isOpen : backend.isOpen state) :
    manager.allKeys query.store query.range query.slice selector state =
      (.ok ((query.firstRows (backend.table state query.store)).map .ok), state) := by
  have steady : Steady (manager.scanPage query.store query.range query.slice)
      (fun after size => .ok (Table.page (backend.table state query.store) query.range query.slice
        after size)) state :=
    fun after size => backend.pages state query.store query.range query.slice after size isOpen
  have ran := Manager.allKeys_of_steady manager (backend.starts state query.store isOpen) steady
    selector
  have noTurns : ∀ turn ∈ ([] : List (σ → σ)), ∀ state, backend.isOpen state →
    backend.isOpen (turn state) := nofun
  obtain ⟨rows, after, walked, -, first⟩ := backend.allKeys_of_turns made isOpen noTurns
  have same := manager.allKeys_disturbed query.store query.range query.slice selector state
  rw [walked, ran, first nofun] at same
  exact ran.trans (congrArg (·, state) same.symm)

end Undisturbed

end GraphStore
