import GraphStore.Proofs.Scan.TrailSteps

/-!
Contract: requests for rows as stretches of a trail.

Owns a run of requests (`Pager.requests`) and its comparison with the turns of a walk: a turn is a
part of a request, or answers it (`Walk.Advanced`). What the requests answer, and the state that
they leave, is therefore what the trail says, as long as each of them may fetch enough pages
(`Walk.requests_of_turns`).
-/

namespace GraphStore.Pager

open Event

variable {σ : Type}

/-- The answers to requests for rows one after the other, each of which may fetch some number of
pages, and what they leave. -/
def requests (fetch : PageSource σ) :
    List Nat → Pager → σ → List (Option (Result KeyedRow)) × Pager × σ
  | [], pager, state => ([], pager, state)
  | fuel :: fuels, pager, state =>
    let (answer, pager, state) := next fetch fuel pager state
    let (answers, pager, state) := requests fetch fuels pager state
    (answer :: answers, pager, state)

namespace Event

@[simp] def answer? : Event → Option (Option (Result KeyedRow))
  | answered answer => some answer
  | _ => none

@[simp] def outcome? : Event → Option (Result (List KeyedRow))
  | fetched _ _ outcome => some outcome
  | _ => none

end Event

def answers (trail : List Event) : List (Option (Result KeyedRow)) := trail.filterMap answer?

def fetchCount (trail : List Event) : Nat := (trail.filterMap outcome?).length

/-- The last of the events answers a request. -/
def AtRest (trail : List Event) : Prop :=
  ∀ event ∈ trail.getLast?, ∃ answer, event = answered answer

section Equations

variable (event : Event) (trail events : List Event)

@[simp] theorem answers_nil : answers [] = [] := rfl

@[simp] theorem answers_cons : answers (event :: trail) = event.answer?.toList ++ answers trail :=
  filterMap_cons_toList answer? event trail

@[simp] theorem answers_append : answers (trail ++ events) = answers trail ++ answers events :=
  List.filterMap_append

@[simp] theorem fetchCount_nil : fetchCount [] = 0 := rfl

@[simp] theorem fetchCount_cons :
    fetchCount (event :: trail) = event.outcome?.toList.length + fetchCount trail := by
  rw [fetchCount, filterMap_cons_toList, List.length_append]
  rfl

@[simp] theorem fetchCount_append :
    fetchCount (trail ++ events) = fetchCount trail + fetchCount events := by
  simp [fetchCount]

end Equations

theorem answers_ne_nil {trail : List Event} (rest : AtRest trail) (filled : trail ≠ []) :
    answers trail ≠ [] := by
  obtain ⟨last, found⟩ := Option.ne_none_iff_exists'.1 (mt List.getLast?_eq_none_iff.1 filled)
  obtain ⟨answer, rfl⟩ := rest last found
  obtain ⟨front, rfl⟩ := List.getLast?_eq_some_iff.1 found
  simp

theorem atRest_of_append {front back : List Event} (rest : AtRest (front ++ back)) :
    AtRest back := by
  intro event last
  apply rest event
  rw [List.getLast?_append, Option.mem_def.1 last]
  rfl

theorem withoutBuffer_of_empty {pager : Pager} (empty : pager.buffered = []) :
    { pager with buffered := [] } = pager := by
  cases pager
  cases empty
  rfl

/-- A row that is passed over does not matter for a request. -/
theorem next_of_passed {fetch : PageSource σ} {pager : Pager} {row : KeyedRow}
    {rest : List KeyedRow} (isOpen : pager.selector.reachedLimit = false)
    (buffered : pager.buffered = row :: rest) (rejected : pager.selector.filter row.key = false)
    (fuel : Nat) (state : σ) :
    next fetch (fuel + 1) pager state =
      next fetch (fuel + 1) { pager with buffered := rest } state := by
  have drew : draw pager.selector pager.buffered = draw pager.selector rest := by
    rw [buffered, draw, Selector.offer_of_rejected rejected]
  simp only [next, isOpen, drew, Bool.false_eq_true, if_false]

namespace Walk

variable {fetch : PageSource σ} {walk after : Walk σ}

/-! ### Turns as parts of requests -/

/-- How a turn is part of a request: the request goes on behind it, with fewer pages to fetch, or is
answered by it. -/
inductive Advanced (fetch : PageSource σ) (walk after : Walk σ) : Prop where
  | silent (events : List Event) (trail : after.trail = walk.trail ++ events)
      (quiet : answers events = [])
      (goesOn : ∀ fuel, next fetch (fuel + 1 + fetchCount events) walk.pager walk.state =
        next fetch (fuel + 1) after.pager after.state)
  | answering (events : List Event) (answer : Option (Result KeyedRow))
      (trail : after.trail = walk.trail ++ (events ++ [answered answer]))
      (quiet : answers events = [])
      (answers : ∀ fuel, next fetch (fuel + 1) walk.pager walk.state =
        (answer, after.pager, after.state))

/-- Every turn goes on with a request or answers it. -/
theorem Turned.advanced (turned : Turned fetch walk after) : Advanced fetch walk after := by
  have drewNothing (empty : walk.pager.buffered = []) :
      draw walk.pager.selector walk.pager.buffered = (none, walk.pager.selector, []) := by
    rw [empty, draw]
  cases turned with
  | ended ended =>
      refine .answering [] none rfl rfl fun fuel => ?_
      cases limit : walk.pager.selector.reachedLimit with
      | true => exact next_of_full limit
      | false =>
          obtain ⟨empty, used⟩ := ended.resolve_left (by simp [limit])
          rw [next_of_exhausted limit (drewNothing empty) used, withoutBuffer_of_empty empty]
          rfl
  | @yielded row rows isOpen buffered accepted =>
      refine .answering [asked row.key] (some (.ok row)) rfl rfl fun fuel => ?_
      have drew : draw walk.pager.selector walk.pager.buffered = (some row,
          { walk.pager.selector with accepted := walk.pager.selector.accepted + 1 }, rows) := by
        rw [buffered, draw, Selector.offer_of_accepted isOpen accepted]
      exact next_of_buffered isOpen drew
  | @passed row rows isOpen buffered rejected =>
      exact .silent [asked row.key] rfl rfl fun fuel =>
        next_of_passed isOpen buffered rejected fuel walk.state
  | @failed failure state isOpen empty unused failed =>
      refine .answering [fetched walk.pager.lastKey walk.pager.pageSize (.error failure)]
        (some (.error failure)) rfl rfl fun fuel => ?_
      rw [next_of_failed isOpen (drewNothing empty) unused failed, ← empty]
      rfl
  | @filled page state isOpen empty unused answers filled =>
      refine .silent [fetched walk.pager.lastKey walk.pager.pageSize (.ok page)] rfl rfl
        fun fuel => ?_
      have notEmpty : page.isEmpty = false := by simpa using filled
      show next fetch (fuel + 1 + 1) walk.pager walk.state = _
      rw [next_of_fetched isOpen (drewNothing empty) unused answers, notEmpty]
      rfl
  | @drained state isOpen empty unused answers =>
      refine .answering [fetched walk.pager.lastKey walk.pager.pageSize (.ok [])] none ?_ rfl
        fun fuel => ?_
      · simp [note]
      · rw [next_of_fetched isOpen (drewNothing empty) unused answers]
        rfl

/-- Turns only add to the trail. -/
theorem exists_events (fetch : PageSource σ) (turns : Nat) (walk : Walk σ) :
    ∃ events, ((turn fetch)^[turns] walk).trail = walk.trail ++ events := by
  induction turns generalizing walk with
  | zero => exact ⟨[], (List.append_nil _).symm⟩
  | succ turns inductionHypothesis =>
      rw [Function.iterate_succ_apply]
      obtain ⟨events, later⟩ := inductionHypothesis (walk.turn fetch)
      cases (turned fetch walk).advanced with
      | silent first trail _ _ => exact ⟨first ++ events, by rw [later, trail, List.append_assoc]⟩
      | answering first answer trail _ _ =>
          exact ⟨first ++ [answered answer] ++ events, by rw [later, trail]; simp⟩

/-- The requests answer what the trail says and leave the state that the walk is in. The induction
is on the turns; a silent turn is made by the request that is answered behind it. -/
theorem requests_of_turns {turns : Nat} {events : List Event} {fuels : List Nat}
    (later : ((turn fetch)^[turns] walk).trail = walk.trail ++ events) (rest : AtRest events)
    (each : fuels.length = (answers events).length)
    (enough : ∀ fuel ∈ fuels, fetchCount events < fuel) :
    requests fetch fuels walk.pager walk.state = (answers events,
      ((turn fetch)^[turns] walk).pager, ((turn fetch)^[turns] walk).state) := by
  induction turns generalizing walk events fuels with
  | zero =>
      obtain rfl : events = [] := by simpa using later
      obtain rfl : fuels = [] := by simpa using each
      rfl
  | succ turns inductionHypothesis =>
      rw [Function.iterate_succ_apply] at later ⊢
      obtain ⟨others, split⟩ := exists_events fetch turns (walk.turn fetch)
      have turned := turned fetch walk
      have longer := turned.length_lt
      cases turned.advanced with
      | silent first trail quiet goesOn =>
          have parts : events = first ++ others := by
            rw [split, trail, List.append_assoc] at later
            exact (List.append_cancel_left later).symm
          subst parts
          have filled : first ++ others ≠ [] := by
            intro none
            rw [trail, (List.append_eq_nil_iff.1 none).1] at longer
            simp at longer
          cases fuels with
          | nil =>
              have noAnswer := List.eq_nil_of_length_eq_zero each.symm
              exact absurd noAnswer (answers_ne_nil rest filled)
          | cons fuel fuels =>
              obtain ⟨enoughHere, enoughLater⟩ := List.forall_mem_cons.1 enough
              rw [fetchCount_append] at enoughHere enoughLater
              -- The request goes on behind the turn with the pages that are left to it.
              obtain ⟨spare, rfl⟩ : ∃ spare, fuel = spare + 1 + fetchCount first :=
                ⟨fuel - 1 - fetchCount first, by omega⟩
              have remaining : ∀ fuel ∈ (spare + 1) :: fuels, fetchCount others < fuel := by
                refine List.forall_mem_cons.2 ⟨by omega, fun other member => ?_⟩
                have atLeast := enoughLater other member
                omega
              have counted : ((spare + 1) :: fuels).length = (answers others).length := by
                simpa [quiet] using each
              have answered := inductionHypothesis split (atRest_of_append rest) counted remaining
              rw [answers_append, quiet, List.nil_append, ← answered, requests, requests,
                goesOn spare]
      | answering first answer trail quiet given =>
          have parts : events = first ++ [answered answer] ++ others := by
            rw [split, trail, List.append_assoc] at later
            exact (List.append_cancel_left later).symm
          subst parts
          cases fuels with
          | nil => simp [quiet] at each
          | cons fuel fuels =>
              obtain ⟨enoughHere, enoughLater⟩ := List.forall_mem_cons.1 enough
              simp only [fetchCount_append] at enoughHere enoughLater
              obtain ⟨spare, rfl⟩ : ∃ spare, fuel = spare + 1 := ⟨fuel - 1, by omega⟩
              have remaining : ∀ fuel ∈ fuels, fetchCount others < fuel := by
                intro other member
                have atLeast := enoughLater other member
                omega
              have counted : fuels.length = (answers others).length := by
                simpa [quiet] using each
              have answered := inductionHypothesis split (atRest_of_append rest) counted remaining
              rw [requests, given spare]
              dsimp only
              rw [answered]
              simp [quiet]

end Walk

end GraphStore.Pager
