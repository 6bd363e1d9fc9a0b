import GraphStore.Proofs.Scan.Disturbed

/-!
Contract: walks over keys that are followed to their end while the backend changes.

Owns what one request for a row comes to (`PagedBackend.Requested`), and from it the rows of a whole
walk (`PagedBackend.allKeys_scanned`). Both backends are walked over so, whatever changes them
between the fetches, as long as it does not close them (`KeyQuery.rows_of_turns`).
-/

namespace GraphStore

section Walk

variable {σ : Type} {manager : Manager σ} {backend : PagedBackend manager} {query : KeyQuery}
  {start world : Disturbed σ} {found rows : List KeyedRow} {pager : Pager}

namespace PagedBackend

/-! ### Requests for rows -/

/-- What a request for a row comes to: one more row, with fewer left than there were, or the end of
the walk. -/
inductive Requested (backend : PagedBackend manager) (query : KeyQuery) (start : Disturbed σ)
    (found : List KeyedRow) (left : Nat) :
    Option (Result KeyedRow) → Pager → Disturbed σ → Prop where
  | row {row : KeyedRow} {after : Pager} {turned : Disturbed σ}
      (standing : backend.Standing query start (found ++ [row]) after turned)
      (fewer : after.buffered.length + backend.ahead query after turned < left) :
      Requested backend query start found left (some (.ok row)) after turned
  | ended {after : Pager} {turned : Disturbed σ}
      (standing : backend.Standing query start found after turned) (ended : after.Ended) :
      Requested backend query start found left none after turned

theorem Requested.mono {row : Option (Result KeyedRow)} {left more : Nat} {after : Pager}
    {turned : Disturbed σ} (requested : backend.Requested query start found left row after turned)
    (atMost : left ≤ more) : backend.Requested query start found more row after turned := by
  cases requested with
  | row standing fewer => exact .row standing (Nat.lt_of_lt_of_le fewer atMost)
  | ended standing ended => exact .ended standing ended

namespace Standing

/-- What one request for a row comes to. The induction is on the pages that it may fetch; each of
them leaves fewer rows ahead. -/
theorem next (isOpen : start.Keeps backend.isOpen)
    (standing : backend.Standing query start found pager world) {fuel : Nat}
    (enough : backend.ahead query pager world < fuel) :
    ∃ row after turned,
      pager.next (manager.disturbed.scanPage query.store query.range query.slice) fuel world =
          (row, after, turned) ∧
        backend.Requested query start found
          (pager.buffered.length + backend.ahead query pager world) row after turned := by
  induction fuel generalizing pager world with
  | zero => exact absurd enough (Nat.not_lt_zero _)
  | succ fuel inductionHypothesis =>
      cases limit : pager.selector.reachedLimit with
      | true => exact ⟨none, pager, world, Pager.next_of_full limit, .ended standing (.inl limit)⟩
      | false =>
      rcases Pager.draw_cases limit pager.buffered with
        ⟨skipped, row, back, buffer, rejected, accepted, drew⟩ | ⟨rejected, drew⟩
      · refine ⟨_, _, world, Pager.next_of_buffered limit drew,
          .row (standing.take limit buffer rejected accepted) ?_⟩
        have shorter : back.length < pager.buffered.length := by
          rw [buffer, List.length_append, List.length_cons]
          omega
        show back.length + backend.ahead query pager world < _
        omega
      -- The rows that are passed over are dropped before a page is fetched.
      have dropped := standing.drop rejected
      cases used : pager.exhausted with
      | true =>
          exact ⟨none, _, world, Pager.next_of_exhausted limit drew used,
            .ended dropped (.inr ⟨rfl, used⟩)⟩
      | false =>
      obtain ⟨page, fetched, refilled, fewer⟩ := dropped.refill isOpen used rfl
      change page.length + _ ≤ backend.ahead query pager world at fewer
      rw [Pager.next_of_fetched limit drew used fetched]
      cases isEmpty : page.isEmpty with
      | true =>
          refine ⟨none, _, _, rfl, .ended refilled (.inr ?_)⟩
          have nothing := List.isEmpty_iff.1 isEmpty
          have paged : 0 < pager.pageSize := by
            rw [standing.paged]
            decide
          simp [Pager.accept, nothing, paged]
      | false =>
          have filled : 0 < page.length :=
            List.length_pos_iff.2 (List.isEmpty_eq_false_iff.1 isEmpty)
          obtain ⟨row, after, turned, requested, result⟩ :=
            inductionHypothesis refilled (by omega)
          refine ⟨row, after, turned, requested, result.mono ?_⟩
          show page.length + _ ≤ _
          omega

/-! ### Walks to their end -/

/-- What a walk has come to that is followed to its end. -/
theorem collect (isOpen : start.Keeps backend.isOpen)
    (standing : backend.Standing query start found pager world) {fuel : Nat}
    (enough : pager.buffered.length + backend.ahead query pager world < fuel) :
    ∃ rows after turned,
      Manager.Scan.collect manager.disturbed (ε := StoreError) (fun _ => return ()) fuel
          (found.map Except.ok).reverse ⟨query.store, query.range, query.slice, pager⟩ world =
        (.ok (rows.map .ok), turned) ∧
        backend.Standing query start rows after turned ∧ after.Ended := by
  induction fuel generalizing found pager world with
  | zero => exact absurd enough (Nat.not_lt_zero _)
  | succ fuel inductionHypothesis =>
      have provided := backend.ahead_le_rowCount query pager world
      have enoughPages : backend.ahead query pager world <
          manager.disturbed.rowCount query.store world + 2 := by
        omega
      obtain ⟨row, after, turned, requested, result⟩ := standing.next isOpen enoughPages
      have moved : Manager.Scan.next manager.disturbed
          ⟨query.store, query.range, query.slice, pager⟩ world =
            (row, ⟨query.store, query.range, query.slice, after⟩, turned) := by
        unfold Manager.Scan.next
        dsimp only
        rw [requested]
      rw [Manager.collect_succ, moved]
      cases result with
      | ended standing ended =>
          refine ⟨found, after, turned, ?_, standing, ended⟩
          rw [List.reverse_reverse]
      | @row row _ _ standing fewer =>
          have one : Except.ok row :: (found.map Except.ok).reverse =
              ((found ++ [row]).map (Except.ok (ε := StoreError))).reverse := by
            simp
          dsimp only
          rw [one]
          exact inductionHypothesis standing (by omega)

theorem full_of_ended (standing : backend.Standing query start rows pager world)
    (ended : pager.Ended) (more : pager.buffered ≠ [] ∨ pager.exhausted = false) :
    rows.length = query.limit := by
  rcases ended with limit | ⟨empty, used⟩
  · have atLeast : query.limit ≤ rows.length := by
      simpa [standing.reachedLimit_eq] using limit
    exact Nat.le_antisymm standing.limited atLeast
  · rcases more with filled | unused
    · exact absurd empty filled
    · rw [used] at unused
      cases unused

/-- A row that stays has been yielded, or the limit was reached in front of it. -/
theorem covered_of_ended (standing : backend.Standing query start rows pager world)
    (ended : pager.Ended) {row : KeyedRow} (within : query.range.contains row.key = true)
    (passes : query.filter row.key = true) (filled : row.entries ≠ [])
    (stays : backend.Stays query world.fetches row) :
    row ∈ rows ∨ rows.length = query.limit ∧ ∀ other ∈ rows, other.key < row.key := by
  have listed : ∀ other ∈ rows, other ∈ rows ++ pager.buffered := fun other =>
    List.mem_append_left _
  rcases standing.covered row within passes filled stays with member | ⟨unused, ahead⟩
  · rcases List.mem_append.1 member with yielded | buffered
    · exact Or.inl yielded
    · have apart := (List.pairwise_append.1 standing.ascending).2.2
      have full := standing.full_of_ended ended (.inl (List.ne_nil_of_mem buffered))
      exact Or.inr ⟨full, fun other inRows => apart other inRows row buffered⟩
  · refine Or.inr ⟨standing.full_of_ended ended (.inr unused), fun other inRows => ?_⟩
    exact Table.lt_of_inPage (standing.inRange (listed other inRows))
      (standing.reached other (listed other inRows)) ahead

/-- The rows of a walk that is at its end. -/
theorem scanned (standing : backend.Standing query start rows pager world) (ended : pager.Ended) :
    backend.Scanned query rows world.fetches := by
  have listed : ∀ row ∈ rows, row ∈ rows ++ pager.buffered := fun row => List.mem_append_left _
  have ascending := (List.pairwise_append.1 standing.ascending).1
  refine ⟨ascending, fun row member => standing.inRange (listed row member), standing.accepted,
    standing.limited, ?_, ?_, ?_⟩
  · intro row member
    obtain ⟨fetch, made, onPage⟩ := standing.fetched row (listed row member)
    obtain ⟨-, entries, filled⟩ := Table.mem_rowsBehind.1 (List.mem_of_mem_take onPage)
    exact ⟨filled, fetch, made, onPage, entries⟩
  · intro row within passes filled stays
    rcases standing.covered_of_ended ended within passes filled stays with yielded | beyond
    · exact Or.inl (filter_key_of_ascending ascending yielded)
    · exact Or.inr beyond
  · intro table same
    apply eq_take_of_covered ascending (Table.ascending_rowsBehind.filter _) _ standing.limited
    · intro row member
      obtain ⟨member, passes⟩ := List.mem_filter.1 member
      obtain ⟨inside, entries, filled⟩ := Table.mem_rowsBehind.1 member
      refine standing.covered_of_ended ended (Table.contains_of_inPage inside) passes filled ?_
      intro fetch made
      rw [same fetch made, entries]
    · intro row member
      obtain ⟨fetch, made, inside, entries, filled⟩ := standing.shown (listed row member)
      have within := Table.contains_of_inPage inside
      rw [same fetch made] at entries
      refine List.mem_filter.2 ⟨Table.mem_rowsBehind.2 ⟨?_, entries, filled⟩,
        standing.accepted row member⟩
      simp [Table.inPage, within]

end Standing

/-- What becomes of a walk over a backend that stays open. -/
theorem allKeys_scanned {selector : Selector}
    (made : Selector.new query.filter query.limit = .ok selector)
    (isOpen : start.Keeps backend.isOpen) :
    ∃ rows after,
      manager.disturbed.allKeys query.store query.range query.slice selector start =
        (.ok (rows.map .ok), after) ∧
      backend.Scanned query rows after.fetches ∧
      ∀ kept, start.Keeps kept → after.Keeps kept := by
  have started : manager.disturbed.startScan query.store start = (.ok (), start) := by
    show Action.within Disturbed.state (fun world state => { world with state := state })
      (manager.startScan query.store) start = _
    rw [Action.within_apply, backend.starts start.state query.store isOpen.now]
  have begun : manager.disturbed.getKeys query.store query.range query.slice selector start =
      (.ok ⟨query.store, query.range, query.slice, Pager.new selector Manager.scanPageRows⟩,
        start) := Action.bind_of_ok started
  let pager := Pager.new selector Manager.scanPageRows
  have standing : backend.Standing query start [] pager start := .new made
  have provided := backend.ahead_le_rowCount query pager start
  have enough : pager.buffered.length + backend.ahead query pager start <
      manager.disturbed.rowCount query.store start + 2 := by
    show 0 + _ < _
    omega
  obtain ⟨rows, after, turned, collected, result, ended⟩ := standing.collect isOpen enough
  refine ⟨rows, turned, ?_, result.scanned ended, result.keeps⟩
  rw [Manager.allKeys, Action.bind_of_ok begun, Action.get_bind]
  exact collected

/-- A walk over a backend that changes ahead of each fetch yields what its fetches find; where no
change touches the store, these are the first rows of it. -/
theorem allKeys_of_turns (backend : PagedBackend manager) {query : KeyQuery} {selector : Selector}
    (made : Selector.new query.filter query.limit = .ok selector) {turns : List (σ → σ)} {state : σ}
    (isOpen : backend.isOpen state)
    (staysOpen : ∀ turn ∈ turns, ∀ state, backend.isOpen state → backend.isOpen (turn state)) :
    ∃ rows after,
      manager.disturbed.allKeys query.store query.range query.slice selector
          (.new turns state) = (.ok (rows.map .ok), after) ∧
        backend.Scanned query rows after.fetches ∧
        ((∀ turn ∈ turns, ∀ state,
            backend.table (turn state) query.store = backend.table state query.store) →
          rows = query.firstRows (backend.table state query.store)) := by
  have stays : (Disturbed.new turns state).Keeps backend.isOpen := .new isOpen staysOpen
  obtain ⟨rows, after, ran, scanned, keeps⟩ := allKeys_scanned made stays
  refine ⟨rows, after, ran, scanned, fun untouched => ?_⟩
  apply scanned.undisturbed
  let same : σ → Prop := fun other =>
    backend.table other query.store = backend.table state query.store
  have keepsSame : after.Keeps same := by
    apply keeps
    refine .new rfl fun turn member other found => ?_
    exact (untouched turn member other).trans found
  exact keepsSame.found

end PagedBackend

end Walk

/-! ### Backends -/

namespace GuardedManager

variable {σ : Type} {manager : Manager σ} (guarded : GuardedManager manager)

/-- A guarded manager is walked over page by page. -/
def pagedBackend : PagedBackend manager where
  isOpen state := guarded.closed state = false
  table state := (guarded.stores state).table
  starts _ store isOpen := guarded.startScan_of_open isOpen store
  pages _ store range slice after size isOpen :=
    guarded.scanPage_of_handle isOpen store range slice after size
  counts state store := Nat.le_of_eq (guarded.counts store state).symm

/-- A mutation does not close the manager, whatever becomes of its record. -/
theorem closed_mutate (store : StoreRef) (key : Bytes) (additions : List Entry)
    (deletions : List Bytes) {state : σ} (isOpen : guarded.closed state = false) :
    guarded.closed (manager.mutate store key additions deletions state).2 = false := by
  rw [guarded.mutate_of_open isOpen, guarded.writesOpen, isOpen]

end GuardedManager

/-- The backend in memory is walked over page by page. -/
def Memory.pagedBackend : PagedBackend Memory.manager := guarded.pagedBackend

/-- The backend with the log is walked over page by page. -/
def Embedded.pagedBackend : PagedBackend Embedded.manager := guarded.pagedBackend

namespace KeyQuery

/-- Whatever changes there are between the fetches of a walk over keys, as long as none of them
closes the backend: the walk yields rows only, in key order, each of them as some fetch found it,
no more than were asked for, and every row that stays as it is for all fetches, unless the limit was
reached in front of it. Where no change touches the store, it yields the first rows of it. -/
theorem rows_of_turns (query : KeyQuery) {selector : Selector}
    (made : Selector.new query.filter query.limit = .ok selector) :
    (∀ (memory : Memory) (turns : List (Memory → Memory)), memory.closed = false →
      (∀ turn ∈ turns, ∀ state : Memory, state.closed = false → (turn state).closed = false) →
      ∃ rows after,
        Memory.manager.disturbed.allKeys query.store query.range query.slice selector
            (.new turns memory) = (.ok (rows.map .ok), after) ∧
          Memory.pagedBackend.Scanned query rows after.fetches ∧
          ((∀ turn ∈ turns, ∀ state : Memory,
              (turn state).stores.table query.store = state.stores.table query.store) →
            rows = query.firstRows (memory.stores.table query.store))) ∧
    ∀ (embedded : Embedded) (turns : List (Embedded → Embedded)), embedded.closed = false →
      (∀ turn ∈ turns, ∀ state : Embedded, state.closed = false → (turn state).closed = false) →
      ∃ rows after,
        Embedded.manager.disturbed.allKeys query.store query.range query.slice selector
            (.new turns embedded) = (.ok (rows.map .ok), after) ∧
          Embedded.pagedBackend.Scanned query rows after.fetches ∧
          ((∀ turn ∈ turns, ∀ state : Embedded,
              (turn state).stores.table query.store = state.stores.table query.store) →
            rows = query.firstRows (embedded.stores.table query.store)) :=
  ⟨fun _ _ isOpen staysOpen => Memory.pagedBackend.allKeys_of_turns made isOpen staysOpen,
    fun _ _ isOpen staysOpen => Embedded.pagedBackend.allKeys_of_turns made isOpen staysOpen⟩

/-! ### A page is overtaken -/

/-- One row more than a page holds. -/
def overfull : Generations :=
  .ofTables (.ofList [("s", .ofList ((List.range 257).reverse.map fun number =>
    (Bytes.bigEndian 2 number, .ofList [([7], [8])])))])

def heldRows : Memory := ⟨overfull, false⟩

/-- The rows beside a log that nothing has been written to. -/
def loggedRows : Embedded :=
  ⟨overfull, LogWriter.new (LogFile.ofBytes []) 0 0 true, false, ⟨0, 0, 0⟩, none⟩

/-- Removes the last row of the first page, and adds a row in front of it and one behind all. -/
def overtake {σ : Type} (manager : Manager σ) (state : σ) : σ :=
  let removed := (manager.mutate ⟨"s", 0⟩ [0, 255] [] [[7]] state).2
  let added := (manager.mutate ⟨"s", 0⟩ [0, 254, 1] [⟨[7], [8]⟩] [] removed).2
  (manager.mutate ⟨"s", 0⟩ [2] [⟨[7], [8]⟩] [] added).2

def aroundPageEnd : KeyQuery := ⟨⟨"s", 0⟩, .full, .fullRow, fun key => !(key < [0, 254]), 300⟩

/-- The removed row had been fetched, and the row in front of it comes too late. -/
def overtakenRows : List KeyedRow :=
  [[0, 254], [0, 255], [1, 0], [2]].map fun key => ⟨key, [⟨[7], [8]⟩]⟩

theorem rows_of_turns_overtaken :
    (∃ after,
      Memory.manager.disturbed.allKeys ⟨"s", 0⟩ .full .fullRow ⟨aroundPageEnd.filter, 300, 0⟩
          (.new [id, overtake Memory.manager] heldRows) =
        (.ok (overtakenRows.map .ok), after) ∧
      Memory.pagedBackend.Scanned aroundPageEnd overtakenRows after.fetches) ∧
    ∃ after,
      Embedded.manager.disturbed.allKeys ⟨"s", 0⟩ .full .fullRow ⟨aroundPageEnd.filter, 300, 0⟩
          (.new [id, overtake Embedded.manager] loggedRows) =
        (.ok (overtakenRows.map .ok), after) ∧
      Embedded.pagedBackend.Scanned aroundPageEnd overtakenRows after.fetches := by
  have made : Selector.new aroundPageEnd.filter aroundPageEnd.limit =
      .ok ⟨aroundPageEnd.filter, 300, 0⟩ := rfl
  obtain ⟨inMemory, withLog⟩ := aroundPageEnd.rows_of_turns made
  have rowsOf {rows found : List KeyedRow}
      (same : (.ok (rows.map .ok) : Result (List (Result KeyedRow))) = .ok (found.map .ok)) :
      rows = found :=
    (List.map_inj_right fun _ _ => Except.ok.inj).1 (Except.ok.inj same)
  constructor
  · have staysOpen : ∀ turn ∈ [id, overtake Memory.manager], ∀ state : Memory,
        state.closed = false → (turn state).closed = false := by
      simp only [List.forall_mem_cons]
      refine ⟨fun _ isOpen => isOpen, fun state isOpen => ?_, nofun⟩
      exact Memory.guarded.closed_mutate _ _ _ _ (Memory.guarded.closed_mutate _ _ _ _
        (Memory.guarded.closed_mutate _ _ _ _ isOpen))
    obtain ⟨rows, after, ran, scanned, -⟩ := inMemory heldRows _ rfl staysOpen
    have yielded : (Memory.manager.disturbed.allKeys ⟨"s", 0⟩ .full .fullRow
        ⟨aroundPageEnd.filter, 300, 0⟩ (.new [id, overtake Memory.manager] heldRows)).1 =
          .ok (overtakenRows.map .ok) := by
      decide +kernel
    obtain rfl := rowsOf ((congrArg Prod.fst ran).symm.trans yielded)
    exact ⟨after, ran, scanned⟩
  · have staysOpen : ∀ turn ∈ [id, overtake Embedded.manager], ∀ state : Embedded,
        state.closed = false → (turn state).closed = false := by
      simp only [List.forall_mem_cons]
      refine ⟨fun _ isOpen => isOpen, fun state isOpen => ?_, nofun⟩
      exact Embedded.guarded.closed_mutate _ _ _ _ (Embedded.guarded.closed_mutate _ _ _ _
        (Embedded.guarded.closed_mutate _ _ _ _ isOpen))
    obtain ⟨rows, after, ran, scanned, -⟩ := withLog loggedRows _ rfl staysOpen
    have yielded : (Embedded.manager.disturbed.allKeys ⟨"s", 0⟩ .full .fullRow
        ⟨aroundPageEnd.filter, 300, 0⟩ (.new [id, overtake Embedded.manager] loggedRows)).1 =
          .ok (overtakenRows.map .ok) := by
      decide +kernel
    obtain rfl := rowsOf ((congrArg Prod.fst ran).symm.trans yielded)
    exact ⟨after, ran, scanned⟩

end KeyQuery

end GraphStore
