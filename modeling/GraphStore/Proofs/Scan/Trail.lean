import GraphStore.Proofs.Scan.Disturbed

/-!
Contract: what a walk over pages does, event by event.

Owns the events of a walk that is asked for rows again and again (`Pager.Event`), and when a trail
of them is as it should be (`Pager.Regular`): each event is one that may come behind the events in
front of it. It also owns one turn of the loop with its events noted (`Walk.turn`), and the cases of
a turn (`Walk.Turned`). The source of pages may fail at any call; its pages are in key order, behind
the key that they were asked for, and not too long (`PageSource.Orderly`).
-/

namespace GraphStore

/-- The pages of the source are rows in key order behind the given key, and no more than asked for.
Any call may fail instead. -/
structure PageSource.Orderly {σ : Type} (fetch : PageSource σ) : Prop where
  short : ∀ {after size state page}, (fetch after size state).1 = .ok page → page.length ≤ size
  ascending : ∀ {after size state page}, (fetch after size state).1 = .ok page →
    page.Pairwise fun left right => left.key < right.key
  behind : ∀ {after size state page}, (fetch after size state).1 = .ok page →
    ∀ last ∈ after, ∀ row ∈ page, last < row.key

namespace Pager

/-! ### Events -/

/-- What happens in a walk: a key is put to the filter, a page is fetched, a request for a row is
answered. -/
inductive Event where
  | asked (key : Bytes)
  | fetched (after : Option Bytes) (size : Nat) (outcome : Result (List KeyedRow))
  | answered (answer : Option (Result KeyedRow))

namespace Event

@[simp] def asked? : Event → Option Bytes
  | asked key => some key
  | _ => none

@[simp] def page? : Event → Option (List KeyedRow)
  | fetched _ _ (.ok page) => some page
  | _ => none

@[simp] def failure? : Event → Option StoreError
  | fetched _ _ (.error failure) => some failure
  | _ => none

@[simp] def row? : Event → Option KeyedRow
  | answered (some (.ok row)) => some row
  | _ => none

end Event

open Event

variable {filter : KeyFilter} {limit size : Nat} {trail events front back : List Event}

def askedKeys (trail : List Event) : List Bytes := trail.filterMap asked?

def pages (trail : List Event) : List (List KeyedRow) := trail.filterMap page?

def rows (trail : List Event) : List KeyedRow := (pages trail).flatten

def failures (trail : List Event) : List StoreError := trail.filterMap failure?

def yielded (trail : List Event) : List KeyedRow := trail.filterMap row?

def lastPageKey (trail : List Event) : Option Bytes :=
  ((pages trail).getLast?.bind List.getLast?).map KeyedRow.key

/-- A request was answered with a failure, or with the end of the walk. -/
def Closed (trail : List Event) : Prop :=
  answered none ∈ trail ∨ ∃ failure, answered (some (.error failure)) ∈ trail

/-- What is picked from a list comes from its head or from its tail. -/
theorem filterMap_cons_toList {α β : Type} (pick : α → Option β) (head : α) (tail : List α) :
    (head :: tail).filterMap pick = (pick head).toList ++ tail.filterMap pick := by
  rw [List.filterMap_cons]
  cases pick head <;> rfl

section Equations

variable (event : Event) (trail events : List Event)

@[simp] theorem askedKeys_nil : askedKeys [] = [] := rfl

@[simp] theorem askedKeys_cons :
    askedKeys (event :: trail) = event.asked?.toList ++ askedKeys trail :=
  filterMap_cons_toList asked? event trail

@[simp] theorem askedKeys_append :
    askedKeys (trail ++ events) = askedKeys trail ++ askedKeys events :=
  List.filterMap_append

@[simp] theorem pages_nil : pages [] = [] := rfl

@[simp] theorem pages_cons : pages (event :: trail) = event.page?.toList ++ pages trail :=
  filterMap_cons_toList page? event trail

@[simp] theorem pages_append : pages (trail ++ events) = pages trail ++ pages events :=
  List.filterMap_append

@[simp] theorem failures_nil : failures [] = [] := rfl

@[simp] theorem failures_cons :
    failures (event :: trail) = event.failure?.toList ++ failures trail :=
  filterMap_cons_toList failure? event trail

@[simp] theorem failures_append :
    failures (trail ++ events) = failures trail ++ failures events :=
  List.filterMap_append

@[simp] theorem yielded_nil : yielded [] = [] := rfl

@[simp] theorem yielded_cons : yielded (event :: trail) = event.row?.toList ++ yielded trail :=
  filterMap_cons_toList row? event trail

@[simp] theorem yielded_append : yielded (trail ++ events) = yielded trail ++ yielded events :=
  List.filterMap_append

@[simp] theorem rows_nil : rows [] = [] := rfl

@[simp] theorem rows_cons :
    rows (event :: trail) = event.page?.toList.flatten ++ rows trail := by
  simp [rows]

@[simp] theorem rows_append : rows (trail ++ events) = rows trail ++ rows events := by
  simp [rows]

theorem closed_append : Closed (trail ++ events) ↔ Closed trail ∨ Closed events := by
  simp only [Closed, List.mem_append, exists_or]
  exact or_or_or_comm

end Equations

/-- Where no page is empty, the last row of all is the last one of the last page. -/
theorem lastPageKey_eq (filled : ∀ page ∈ pages trail, page ≠ []) :
    lastPageKey trail = (rows trail).getLast?.map KeyedRow.key := by
  rw [lastPageKey, rows]
  rcases List.eq_nil_or_concat (pages trail) with none | ⟨front, last, split⟩
  · rw [none]
    rfl
  · have notEmpty : last ≠ [] := filled last (by simp [split])
    obtain ⟨row, found⟩ := Option.ne_none_iff_exists'.1 (mt List.getLast?_eq_none_iff.1 notEmpty)
    simp [split, found]

/-! ### Regular trails -/

/-- Behind these events a key may be put to the filter: it is the key of the first row that was not
put to it, and the limit is not reached. -/
structure MayAsk (limit : Nat) (front : List Event) (key : Bytes) : Prop where
  unlimited : (yielded front).length < limit
  next : (rows front)[(askedKeys front).length]?.map KeyedRow.key = some key

/-- Behind these events a page may be fetched: the limit is not reached, no fetch has failed, all
pages were full, and all of their rows have been put to the filter. The page begins behind the last
key of the last one. -/
structure MayFetch (limit size : Nat) (front : List Event) (after : Option Bytes) (asking : Nat) :
    Prop where
  unlimited : (yielded front).length < limit
  unfailed : failures front = []
  full : ∀ page ∈ pages front, page.length = size
  used : (askedKeys front).length = (rows front).length
  size_eq : asking = size
  after_eq : after = lastPageKey front

/-- Behind these events the walk is at its end: the limit is reached, or all rows have been put to
the filter and there are no more, as a fetch has failed or a page was short. -/
def MayEnd (limit size : Nat) (front : List Event) : Prop :=
  (yielded front).length = limit ∨
    (askedKeys front).length = (rows front).length ∧
      (failures front ≠ [] ∨ ∃ page ∈ pages front, page.length < size)

/-- What may happen behind the events `front`, and has to be followed by `back`. -/
def Justified (filter : KeyFilter) (limit size : Nat) (front : List Event) (event : Event)
    (back : List Event) : Prop :=
  (Closed front → event = answered none) ∧
    match event with
    | asked key => MayAsk limit front key ∧
      (filter key = true → ∃ row rest, back = answered (some (.ok row)) :: rest ∧ row.key = key)
    | fetched after asking outcome => MayFetch limit size front after asking ∧
      ∀ failure, outcome = .error failure →
        ∃ rest, back = answered (some (.error failure)) :: rest
    | answered (some (.ok row)) => filter row.key = true ∧
      ∃ earlier, front = earlier ++ [asked row.key]
    | answered (some (.error failure)) =>
      ∃ earlier after asking, front = earlier ++ [fetched after asking (.error failure)]
    | answered none => MayEnd limit size front

/-- Each of the events is justified by `trail` and those in front of it. -/
def AllJustified (filter : KeyFilter) (limit size : Nat) (trail events : List Event) : Prop :=
  ∀ front event back, events = front ++ event :: back →
    Justified filter limit size (trail ++ front) event back

/-- The trail of a walk that does as it should. -/
structure Regular (filter : KeyFilter) (limit size : Nat) (trail : List Event) : Prop where
  justified : AllJustified filter limit size [] trail
  ascending : (rows trail).Pairwise fun left right => left.key < right.key
  /-- The rows up to some row have been put to the filter, each of them once and in order, and the
  accepted ones among them have been yielded. -/
  taken : ∃ taken left, rows trail = taken ++ left ∧ askedKeys trail = taken.map KeyedRow.key ∧
    yielded trail = taken.filter fun row => filter row.key
  limited : (yielded trail).length ≤ limit

/-- What has to follow an event still follows it when more events come. -/
theorem Justified.more {event : Event} (justified : Justified filter limit size front event back)
    (events : List Event) : Justified filter limit size front event (back ++ events) := by
  obtain ⟨closed, allowed⟩ := justified
  refine ⟨closed, ?_⟩
  cases event with
  | asked key =>
      refine ⟨allowed.1, fun accepted => ?_⟩
      obtain ⟨row, rest, rfl, same⟩ := allowed.2 accepted
      exact ⟨row, rest ++ events, rfl, same⟩
  | fetched after asking outcome =>
      refine ⟨allowed.1, fun failure failed => ?_⟩
      obtain ⟨rest, rfl⟩ := allowed.2 failure failed
      exact ⟨rest ++ events, rfl⟩
  | answered answer =>
      rcases answer with _ | _ | _
      all_goals exact allowed

/-- Justified events behind a justified trail are justified with it. -/
theorem AllJustified.append (justified : AllJustified filter limit size [] trail)
    (added : AllJustified filter limit size trail events) :
    AllJustified filter limit size [] (trail ++ events) := by
  intro front event back split
  rcases List.append_eq_append_iff.1 split with ⟨inner, isFront, rest⟩ | ⟨inner, isTrail, rest⟩
  · rw [isFront]
    exact added inner event back rest
  · cases inner with
    | nil =>
        rw [List.append_nil] at isTrail
        have first := added [] event back rest.symm
        rwa [isTrail, List.append_nil] at first
    | cons first inner =>
        obtain ⟨rfl, rfl⟩ := List.cons.inj rest
        exact (justified front event inner isTrail).more events

theorem allJustified_singleton {event : Event}
    (justified : Justified filter limit size trail event []) :
    AllJustified filter limit size trail [event] := by
  intro front other back split
  cases front with
  | nil =>
      obtain ⟨rfl, rfl⟩ := List.cons.inj split
      rwa [List.append_nil]
  | cons first front => simp at split

theorem allJustified_pair {first second : Event}
    (justified : Justified filter limit size trail first [second])
    (next : Justified filter limit size (trail ++ [first]) second []) :
    AllJustified filter limit size trail [first, second] := by
  intro front other back split
  cases front with
  | nil =>
      obtain ⟨rfl, rfl⟩ := List.cons.inj split
      rwa [List.append_nil]
  | cons event front =>
      obtain ⟨rfl, rest⟩ := List.cons.inj split
      cases front with
      | nil =>
          obtain ⟨rfl, rfl⟩ := List.cons.inj rest
          exact next
      | cons event front => simp at rest

/-! ### Walks -/

/-- A walk with what has happened in it so far. -/
structure Walk (σ : Type) where
  pager : Pager
  state : σ
  trail : List Event

namespace Walk

variable {σ : Type} {fetch : PageSource σ} {walk : Walk σ}

def start (selector : Selector) (pageSize : Nat) (state : σ) : Walk σ :=
  ⟨.new selector pageSize, state, []⟩

def note (walk : Walk σ) (pager : Pager) (state : σ) (events : List Event) : Walk σ :=
  ⟨pager, state, walk.trail ++ events⟩

/-- One turn of the loop of a walk that is asked for rows again and again. -/
def turn (fetch : PageSource σ) (walk : Walk σ) : Walk σ :=
  let pager := walk.pager
  if pager.selector.reachedLimit then walk.note pager walk.state [answered none]
  else
    match pager.buffered with
    | row :: rows =>
      match pager.selector.offer row.key with
      | (true, selector) =>
        walk.note { pager with selector := selector, buffered := rows } walk.state
          [asked row.key, answered (some (.ok row))]
      | (false, selector) =>
        walk.note { pager with selector := selector, buffered := rows } walk.state [asked row.key]
    | [] =>
      if pager.exhausted then walk.note pager walk.state [answered none]
      else
        match fetch pager.lastKey pager.pageSize walk.state with
        | (.error failure, state) =>
          walk.note { pager with exhausted := true } state
            [fetched pager.lastKey pager.pageSize (.error failure),
              answered (some (.error failure))]
        | (.ok page, state) =>
          let walk := walk.note (pager.accept page) state
            [fetched pager.lastKey pager.pageSize (.ok page)]
          if page.isEmpty then walk.note walk.pager walk.state [answered none] else walk

inductive Turned (fetch : PageSource σ) (walk : Walk σ) : Walk σ → Prop where
  | ended (ended : walk.pager.Ended) :
      Turned fetch walk (walk.note walk.pager walk.state [answered none])
  | yielded {row : KeyedRow} {rows : List KeyedRow}
      (isOpen : walk.pager.selector.reachedLimit = false)
      (buffered : walk.pager.buffered = row :: rows)
      (accepted : walk.pager.selector.filter row.key = true) :
      Turned fetch walk (walk.note { walk.pager with
        selector := { walk.pager.selector with accepted := walk.pager.selector.accepted + 1 }
        buffered := rows } walk.state [asked row.key, answered (some (.ok row))])
  | passed {row : KeyedRow} {rows : List KeyedRow}
      (isOpen : walk.pager.selector.reachedLimit = false)
      (buffered : walk.pager.buffered = row :: rows)
      (rejected : walk.pager.selector.filter row.key = false) :
      Turned fetch walk
        (walk.note { walk.pager with buffered := rows } walk.state [asked row.key])
  | failed {failure : StoreError} {state : σ}
      (isOpen : walk.pager.selector.reachedLimit = false) (empty : walk.pager.buffered = [])
      (unused : walk.pager.exhausted = false)
      (failed : fetch walk.pager.lastKey walk.pager.pageSize walk.state =
        (.error failure, state)) :
      Turned fetch walk (walk.note { walk.pager with exhausted := true } state
        [fetched walk.pager.lastKey walk.pager.pageSize (.error failure),
          answered (some (.error failure))])
  | filled {page : List KeyedRow} {state : σ}
      (isOpen : walk.pager.selector.reachedLimit = false) (empty : walk.pager.buffered = [])
      (unused : walk.pager.exhausted = false)
      (answers : fetch walk.pager.lastKey walk.pager.pageSize walk.state = (.ok page, state))
      (filled : page ≠ []) :
      Turned fetch walk (walk.note (walk.pager.accept page) state
        [fetched walk.pager.lastKey walk.pager.pageSize (.ok page)])
  | drained {state : σ}
      (isOpen : walk.pager.selector.reachedLimit = false) (empty : walk.pager.buffered = [])
      (unused : walk.pager.exhausted = false)
      (answers : fetch walk.pager.lastKey walk.pager.pageSize walk.state = (.ok [], state)) :
      Turned fetch walk ((walk.note (walk.pager.accept []) state
        [fetched walk.pager.lastKey walk.pager.pageSize (.ok [])]).note (walk.pager.accept [])
          state [answered none])

/-- A turn does one of the things that a turn may do. -/
theorem turned (fetch : PageSource σ) (walk : Walk σ) : Turned fetch walk (walk.turn fetch) := by
  obtain ⟨⟨selector, pageSize, buffered, lastKey, exhausted⟩, state, trail⟩ := walk
  unfold turn
  dsimp only
  cases isOpen : selector.reachedLimit with
  | true => exact .ended (.inl isOpen)
  | false =>
  rw [if_neg Bool.false_ne_true]
  cases buffered with
  | cons row rows =>
      dsimp only
      cases decision : selector.filter row.key with
      | true =>
          have offered : selector.offer row.key =
              (true, { selector with accepted := selector.accepted + 1 }) := by
            simp [Selector.offer, isOpen, decision]
          rw [offered]
          exact .yielded isOpen rfl decision
      | false =>
          have offered : selector.offer row.key = (false, selector) := by
            simp [Selector.offer, isOpen, decision]
          rw [offered]
          exact .passed isOpen rfl decision
  | nil =>
      cases exhausted with
      | true => exact .ended (.inr ⟨rfl, rfl⟩)
      | false =>
      rcases answers : fetch lastKey pageSize state with ⟨failure | page, left⟩
      · exact .failed isOpen rfl rfl answers
      · cases page with
        | nil => exact .drained isOpen rfl rfl answers
        | cons row rows => exact .filled isOpen rfl rfl answers (List.cons_ne_nil row rows)

end Walk

end Pager

end GraphStore
