import GraphStore.Proofs.Scan.Trail
import Mathlib.Logic.Function.Iterate

/-!
Contract: the turns of a walk over pages leave a regular trail.

Owns the invariant that ties the state of a walk to its trail (`Walk.Tracked`): the selector counts
the rows that were yielded, the buffer holds the fetched rows that were not put to the filter, the
walk is exhausted when a fetch has failed or a page was short, and behind a failure or an end
nothing is left to do. Each kind of turn keeps it, and so does any number of turns
(`Walk.tracked_turns`).
-/

namespace GraphStore.Pager

open Event

variable {filter : KeyFilter} {limit size : Nat}

/-- What lies behind the last of ascending rows lies behind all of them. -/
theorem lt_of_last {found : List KeyedRow}
    (ascending : found.Pairwise fun left right => left.key < right.key) {bound : Bytes}
    (above : ∀ last ∈ found.getLast?.map KeyedRow.key, last < bound) :
    ∀ row ∈ found, row.key < bound := by
  intro row member
  rcases List.eq_nil_or_concat found with rfl | ⟨front, last, rfl⟩
  · exact absurd member List.not_mem_nil
  · have lastBelow : last.key < bound := above last.key (by simp)
    rw [List.concat_eq_append] at member ascending
    rcases List.mem_append.1 member with inFront | isLast
    · have below := (List.pairwise_append.1 ascending).2.2 row inFront last (by simp)
      exact Std.lt_trans below lastBelow
    · rw [List.mem_singleton.1 isLast]
      exact lastBelow

namespace Walk

variable {σ : Type} {fetch : PageSource σ} {walk : Walk σ}

/-- What the trail of a walk says of its state. -/
structure Tracked (filter : KeyFilter) (limit size : Nat) (walk : Walk σ) : Prop where
  justified : AllJustified filter limit size [] walk.trail
  ascending : (rows walk.trail).Pairwise fun left right => left.key < right.key
  limited : (yielded walk.trail).length ≤ limit
  taken : ∃ taken, rows walk.trail = taken ++ walk.pager.buffered ∧
    askedKeys walk.trail = taken.map KeyedRow.key ∧
    yielded walk.trail = taken.filter fun row => filter row.key
  selector : walk.pager.selector = ⟨filter, limit, (yielded walk.trail).length⟩
  pageSize : walk.pager.pageSize = size
  lastKey : walk.pager.lastKey = (rows walk.trail).getLast?.map KeyedRow.key
  sized : ∀ page ∈ pages walk.trail, page.length ≤ size
  exhausted : walk.pager.exhausted = true ↔
    failures walk.trail ≠ [] ∨ ∃ page ∈ pages walk.trail, page.length < size
  closed : Closed walk.trail → walk.pager.Ended

theorem tracked_start {selector : Selector} (made : Selector.new filter limit = .ok selector)
    (pageSize : Nat) (state : σ) :
    (start selector pageSize state).Tracked filter limit (max pageSize 1) where
  justified front event back split := by simp [start] at split
  ascending := .nil
  limited := Nat.zero_le _
  taken := ⟨[], rfl, rfl, rfl⟩
  selector := by
    unfold Selector.new at made
    split at made
    · cases made
    · exact (Except.ok.inj made).symm
  pageSize := rfl
  lastKey := rfl
  sized := nofun
  exhausted := by simp [start, new, failures, pages]
  closed := by simp [start, Closed]

namespace Tracked

variable (tracked : walk.Tracked filter limit size)
include tracked

theorem unlimited (isOpen : walk.pager.selector.reachedLimit = false) :
    (yielded walk.trail).length < limit := by
  simpa [tracked.selector, Selector.reachedLimit] using isOpen

/-- A walk that has rows at hand or pages to come has not told of an end. -/
theorem not_closed (isOpen : walk.pager.selector.reachedLimit = false)
    (more : walk.pager.buffered ≠ [] ∨ walk.pager.exhausted = false) : ¬ Closed walk.trail := by
  intro closed
  rcases tracked.closed closed with limit | ⟨empty, used⟩
  · rw [isOpen] at limit
    cases limit
  · rcases more with filled | unused
    · exact filled empty
    · rw [used] at unused
      cases unused

theorem used_of_empty (empty : walk.pager.buffered = []) :
    (askedKeys walk.trail).length = (rows walk.trail).length := by
  obtain ⟨taken, rows_eq, asked_eq, -⟩ := tracked.taken
  rw [rows_eq, asked_eq, empty, List.append_nil, List.length_map]

theorem mayEnd (ended : walk.pager.Ended) : MayEnd limit size walk.trail := by
  rcases ended with full | ⟨empty, used⟩
  · have atLeast : limit ≤ (yielded walk.trail).length := by
      simpa [tracked.selector, Selector.reachedLimit] using full
    exact Or.inl (Nat.le_antisymm tracked.limited atLeast)
  · exact Or.inr ⟨tracked.used_of_empty empty, tracked.exhausted.1 used⟩

/-- A walk that is at its end says so. -/
theorem ended (ended : walk.pager.Ended) :
    (walk.note walk.pager walk.state [answered none]).Tracked filter limit size where
  justified := tracked.justified.append
    (allJustified_singleton ⟨fun _ => rfl, tracked.mayEnd ended⟩)
  ascending := by simpa [note] using tracked.ascending
  limited := by simpa [note] using tracked.limited
  taken := by simpa [note] using tracked.taken
  selector := by simpa [note] using tracked.selector
  pageSize := tracked.pageSize
  lastKey := by simpa [note] using tracked.lastKey
  sized := by simpa [note] using tracked.sized
  exhausted := by simpa [note] using tracked.exhausted
  closed _ := ended

/-- The row at the head of the buffer is the first one that was not put to the filter. -/
theorem mayAsk {row : KeyedRow} {rest : List KeyedRow}
    (isOpen : walk.pager.selector.reachedLimit = false)
    (buffered : walk.pager.buffered = row :: rest) : MayAsk limit walk.trail row.key := by
  obtain ⟨taken, rows_eq, asked_eq, -⟩ := tracked.taken
  refine ⟨tracked.unlimited isOpen, ?_⟩
  simp [rows_eq, asked_eq, buffered]

/-- A row is passed over. -/
theorem passed {row : KeyedRow} {rest : List KeyedRow}
    (isOpen : walk.pager.selector.reachedLimit = false)
    (buffered : walk.pager.buffered = row :: rest) (rejected : filter row.key = false) :
    (walk.note { walk.pager with buffered := rest } walk.state [asked row.key]).Tracked filter limit
      size := by
  have notClosed := tracked.not_closed isOpen (.inl (by simp [buffered]))
  obtain ⟨taken, rows_eq, asked_eq, yielded_eq⟩ := tracked.taken
  have may := tracked.mayAsk isOpen buffered
  have justified : Justified filter limit size walk.trail (asked row.key) [] := by
    refine ⟨fun closed => absurd closed notClosed, may, fun accepted => ?_⟩
    rw [rejected] at accepted
    cases accepted
  constructor
  case justified => exact tracked.justified.append (allJustified_singleton justified)
  case taken =>
    refine ⟨taken ++ [row], ?_, ?_, ?_⟩
    · simp [note, rows_eq, buffered]
    · simp [note, asked_eq]
    · simp [note, yielded_eq, rejected]
  case closed =>
    intro closed
    have inFront : Closed walk.trail := by simpa [note, closed_append, Closed] using closed
    exact absurd inFront notClosed
  case ascending => simpa [note] using tracked.ascending
  case limited => simpa [note] using tracked.limited
  case selector => simpa [note] using tracked.selector
  case pageSize => exact tracked.pageSize
  case lastKey => simpa [note] using tracked.lastKey
  case sized => simpa [note] using tracked.sized
  case exhausted => simpa [note] using tracked.exhausted

/-- A row is yielded. -/
theorem yielded {row : KeyedRow} {rest : List KeyedRow}
    (isOpen : walk.pager.selector.reachedLimit = false)
    (buffered : walk.pager.buffered = row :: rest) (accepted : filter row.key = true) :
    (walk.note { walk.pager with
      selector := { walk.pager.selector with accepted := walk.pager.selector.accepted + 1 }
      buffered := rest } walk.state [asked row.key, answered (some (.ok row))]).Tracked filter limit
        size := by
  have notClosed := tracked.not_closed isOpen (.inl (by simp [buffered]))
  have unlimited := tracked.unlimited isOpen
  obtain ⟨taken, rows_eq, asked_eq, yielded_eq⟩ := tracked.taken
  have may := tracked.mayAsk isOpen buffered
  have first : Justified filter limit size walk.trail (asked row.key)
      [answered (some (.ok row))] :=
    ⟨fun closed => absurd closed notClosed, may, fun _ => ⟨row, [], rfl, rfl⟩⟩
  have stillOpen : ¬ Closed (walk.trail ++ [asked row.key]) := by
    simpa [closed_append, Closed] using notClosed
  have second : Justified filter limit size (walk.trail ++ [asked row.key])
      (answered (some (.ok row))) [] :=
    ⟨fun closed => absurd closed stillOpen, accepted, walk.trail, rfl⟩
  constructor
  case justified => exact tracked.justified.append (allJustified_pair first second)
  case taken =>
    refine ⟨taken ++ [row], ?_, ?_, ?_⟩
    · simp [note, rows_eq, buffered]
    · simp [note, asked_eq]
    · simp [note, yielded_eq, accepted]
  case closed =>
    intro closed
    have inFront : Closed walk.trail := by simpa [note, closed_append, Closed] using closed
    exact absurd inFront notClosed
  case limited => simpa [note, Nat.succ_le_iff] using unlimited
  case selector => simp [note, tracked.selector]
  case ascending => simpa [note] using tracked.ascending
  case pageSize => exact tracked.pageSize
  case lastKey => simpa [note] using tracked.lastKey
  case sized => simpa [note] using tracked.sized
  case exhausted => simpa [note] using tracked.exhausted

section Fetching

variable (positive : 0 < size) (isOpen : walk.pager.selector.reachedLimit = false)
  (empty : walk.pager.buffered = []) (unused : walk.pager.exhausted = false)
include positive isOpen empty unused

theorem mayFetch :
    MayFetch limit size walk.trail walk.pager.lastKey walk.pager.pageSize := by
  have going : ¬ (failures walk.trail ≠ [] ∨ ∃ page ∈ pages walk.trail, page.length < size) := by
    rw [← tracked.exhausted, unused]
    exact Bool.false_ne_true
  obtain ⟨unfailed, noShort⟩ := not_or.1 going
  have full : ∀ page ∈ pages walk.trail, page.length = size := by
    intro page member
    have notShort : ¬ page.length < size := fun short => noShort ⟨page, member, short⟩
    exact Nat.le_antisymm (tracked.sized page member) (Nat.not_lt.1 notShort)
  refine ⟨tracked.unlimited isOpen, not_not.1 unfailed, full, tracked.used_of_empty empty,
    tracked.pageSize, ?_⟩
  rw [tracked.lastKey, lastPageKey_eq]
  intro page member
  exact List.ne_nil_of_length_pos (full page member ▸ positive)

/-- A fetch fails, and the failure is yielded. -/
theorem failed (failure : StoreError) (state : σ) :
    (walk.note { walk.pager with exhausted := true } state
      [fetched walk.pager.lastKey walk.pager.pageSize (.error failure),
        answered (some (.error failure))]).Tracked filter limit size := by
  have notClosed := tracked.not_closed isOpen (.inr unused)
  have may := tracked.mayFetch positive isOpen empty unused
  have first : Justified filter limit size walk.trail
      (fetched walk.pager.lastKey walk.pager.pageSize (.error failure))
      [answered (some (.error failure))] := by
    refine ⟨fun closed => absurd closed notClosed, may, fun told same => ?_⟩
    obtain rfl := Except.error.inj same
    exact ⟨[], rfl⟩
  have stillOpen : ¬ Closed (walk.trail ++
      [fetched walk.pager.lastKey walk.pager.pageSize (.error failure)]) := by
    simpa [closed_append, Closed] using notClosed
  have second : Justified filter limit size (walk.trail ++
      [fetched walk.pager.lastKey walk.pager.pageSize (.error failure)])
      (answered (some (.error failure))) [] :=
    ⟨fun closed => absurd closed stillOpen, walk.trail, _, _, rfl⟩
  constructor
  case justified => exact tracked.justified.append (allJustified_pair first second)
  case exhausted => simp [note]
  case closed => exact fun _ => Or.inr ⟨empty, rfl⟩
  case taken => simpa [note] using tracked.taken
  case limited => simpa [note] using tracked.limited
  case selector => simpa [note] using tracked.selector
  case ascending => simpa [note] using tracked.ascending
  case pageSize => exact tracked.pageSize
  case lastKey => simpa [note] using tracked.lastKey
  case sized => simpa [note] using tracked.sized

/-- A page is fetched. -/
theorem fetched (orderly : fetch.Orderly) {page : List KeyedRow} {state : σ}
    (answers : fetch walk.pager.lastKey walk.pager.pageSize walk.state = (.ok page, state)) :
    (walk.note (walk.pager.accept page) state
      [.fetched walk.pager.lastKey walk.pager.pageSize (.ok page)]).Tracked filter limit size := by
  have notClosed := tracked.not_closed isOpen (.inr unused)
  have may := tracked.mayFetch positive isOpen empty unused
  have outcome : (fetch walk.pager.lastKey walk.pager.pageSize walk.state).1 = .ok page := by
    rw [answers]
  have justified : Justified filter limit size walk.trail
      (.fetched walk.pager.lastKey walk.pager.pageSize (.ok page)) [] := by
    refine ⟨fun closed => absurd closed notClosed, may, ?_⟩
    intro failure same
    cases same
  obtain ⟨taken, rows_eq, asked_eq, yielded_eq⟩ := tracked.taken
  rw [empty, List.append_nil] at rows_eq
  have short : page.length ≤ size := tracked.pageSize ▸ orderly.short outcome
  constructor
  case justified => exact tracked.justified.append (allJustified_singleton justified)
  case taken =>
    exact ⟨taken, by simp [note, accept, rows_eq], by simp [note, asked_eq],
      by simp [note, yielded_eq]⟩
  case ascending =>
    have above := orderly.behind outcome
    rw [tracked.lastKey] at above
    have together : (rows walk.trail ++ page).Pairwise fun left right => left.key < right.key := by
      refine List.pairwise_append.2 ⟨tracked.ascending, orderly.ascending outcome, ?_⟩
      intro left inFront right onPage
      exact lt_of_last tracked.ascending (fun last found => above last found right onPage) left
        inFront
    simpa [note] using together
  case lastKey =>
    cases last : page.getLast? with
    | some row => simp [note, accept, last]
    | none => simp [note, accept, last, tracked.lastKey]
  case sized =>
    have all : ∀ other, other ∈ pages walk.trail ∨ other = page → other.length ≤ size := by
      rintro other (earlier | rfl)
      · exact tracked.sized other earlier
      · exact short
    simpa [note] using all
  case exhausted =>
    have noneShort : ∀ other ∈ pages walk.trail, ¬ other.length < size := by
      intro other member
      rw [may.full other member]
      exact Nat.lt_irrefl size
    show (walk.pager.exhausted || decide (page.length < walk.pager.pageSize)) = true ↔ _
    rw [unused, tracked.pageSize, Bool.false_or, decide_eq_true_iff]
    constructor
    · exact fun isShort => Or.inr ⟨page, by simp [note], isShort⟩
    · rintro (failures | ⟨other, member, isShort⟩)
      · simp [note, may.unfailed] at failures
      · have among : other ∈ pages walk.trail ∨ other = page := by simpa [note] using member
        rcases among with earlier | rfl
        · exact absurd isShort (noneShort other earlier)
        · exact isShort
  case closed =>
    intro closed
    have inFront : Closed walk.trail := by simpa [note, closed_append, Closed] using closed
    exact absurd inFront notClosed
  case limited => simpa [note] using tracked.limited
  case selector => simpa [note, accept] using tracked.selector
  case pageSize => exact tracked.pageSize

end Fetching

/-- Every turn keeps the invariant. -/
theorem turned (positive : 0 < size) (orderly : fetch.Orderly) {after : Walk σ}
    (turned : Turned fetch walk after) : after.Tracked filter limit size := by
  have filter_eq : walk.pager.selector.filter = filter := congrArg Selector.filter tracked.selector
  cases turned with
  | ended ended => exact tracked.ended ended
  | yielded isOpen buffered accepted =>
      exact tracked.yielded isOpen buffered (filter_eq ▸ accepted)
  | passed isOpen buffered rejected =>
      exact tracked.passed isOpen buffered (filter_eq ▸ rejected)
  | failed isOpen empty unused _ => exact tracked.failed positive isOpen empty unused _ _
  | filled isOpen empty unused answers _ =>
      exact tracked.fetched positive isOpen empty unused orderly answers
  | drained isOpen empty unused answers =>
      have fetched := tracked.fetched positive isOpen empty unused orderly answers
      have short : 0 < walk.pager.pageSize := tracked.pageSize ▸ positive
      exact fetched.ended (Or.inr ⟨rfl, by simp [note, accept, short]⟩)

/-- A walk that keeps to its invariant has a regular trail. -/
theorem regular : Regular filter limit size walk.trail where
  justified := tracked.justified
  ascending := tracked.ascending
  taken := by
    obtain ⟨taken, rows_eq, asked_eq, yielded_eq⟩ := tracked.taken
    exact ⟨taken, walk.pager.buffered, rows_eq, asked_eq, yielded_eq⟩
  limited := tracked.limited

end Tracked

/-- The walk behind any number of turns keeps to its invariant. -/
theorem tracked_turns {selector : Selector} (made : Selector.new filter limit = .ok selector)
    (pageSize : Nat) (orderly : fetch.Orderly) (state : σ) (turns : Nat) :
    ((turn fetch)^[turns] (start selector pageSize state)).Tracked filter limit
      (max pageSize 1) := by
  have positive : 0 < max pageSize 1 := by omega
  induction turns with
  | zero => exact tracked_start made pageSize state
  | succ turns inductionHypothesis =>
      rw [Function.iterate_succ_apply']
      exact inductionHypothesis.turned positive orderly (Walk.turned fetch _)

/-- A turn adds something to the trail. -/
theorem Turned.length_lt {after : Walk σ} (turned : Turned fetch walk after) :
    walk.trail.length < after.trail.length := by
  cases turned <;> simp [note]

/-- Every turn adds an event. -/
theorem length_turns (fetch : PageSource σ) (turns : Nat) (walk : Walk σ) :
    walk.trail.length + turns ≤ ((turn fetch)^[turns] walk).trail.length := by
  induction turns with
  | zero => exact Nat.le_refl _
  | succ turns inductionHypothesis =>
      rw [Function.iterate_succ_apply']
      have longer := (turned fetch ((turn fetch)^[turns] walk)).length_lt
      omega

end Walk

end GraphStore.Pager
