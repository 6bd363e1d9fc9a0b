import GraphStore.Proofs.Scan.Pages
import Mathlib.Data.List.Basic

/-!
Contract: where a walk over keys stands while the backend changes between the fetches of its pages.

Owns a state with changes to come, one ahead of each fetch (`Disturbed`), the manager on such states
(`Manager.disturbed`), and what a step of a walk over them preserves (`PagedBackend.Standing`): the
rows that were yielded and those in the buffer are together in key order, none of them lies behind
the end of the last page, and a row that looked the same to all fetches is among them or lies behind
that end. The steps are to yield a row, to drop a buffer without accepted rows, and to fetch a page.
-/

namespace GraphStore

/-! ### Changes between fetches -/

/-- A fetch of a page: the key that it begins behind, and the state that it reads. -/
structure Fetch (σ : Type) where
  after : Option Bytes
  state : σ

/-- A state that changes ahead of each fetch of a page: the changes to come, and the fetches so far,
the latest first. -/
structure Disturbed (σ : Type) where
  turns : List (σ → σ)
  state : σ
  fetches : List (Fetch σ)

namespace Disturbed

variable {σ : Type}

def new (turns : List (σ → σ)) (state : σ) : Disturbed σ := ⟨turns, state, []⟩

/-- Makes the next change, if one is left, and takes note of the fetch that follows it. -/
def turn (after : Option Bytes) (world : Disturbed σ) : Disturbed σ :=
  let state := world.turns.headD id world.state
  ⟨world.turns.tail, state, ⟨after, state⟩ :: world.fetches⟩

def settled (world : Disturbed σ) : σ :=
  world.turns.foldl (fun state change => change state) world.state

theorem settled_turn (after : Option Bytes) (world : Disturbed σ) :
    (world.turn after).settled = world.settled := by
  obtain ⟨turns, state, fetches⟩ := world
  cases turns <;> rfl

theorem state_turn_of_nil {world : Disturbed σ} (turns : world.turns = []) (after : Option Bytes) :
    (world.turn after).state = world.state := by
  simp [turn, turns]

theorem settled_of_nil {world : Disturbed σ} (turns : world.turns = []) :
    world.settled = world.state := by
  simp [settled, turns]

/-- A property that holds now, that no change to come destroys, and that every fetch has found. -/
structure Keeps (kept : σ → Prop) (world : Disturbed σ) : Prop where
  now : kept world.state
  later : ∀ change ∈ world.turns, ∀ state, kept state → kept (change state)
  found : ∀ fetch ∈ world.fetches, kept fetch.state

theorem Keeps.new {kept : σ → Prop} {turns : List (σ → σ)} {state : σ} (now : kept state)
    (later : ∀ change ∈ turns, ∀ state, kept state → kept (change state)) :
    (new turns state).Keeps kept :=
  ⟨now, later, nofun⟩

/-- A lasting property holds behind the changes ahead of a fetch. -/
theorem Keeps.turn {kept : σ → Prop} {world : Disturbed σ} (keeps : world.Keeps kept)
    (after : Option Bytes) : (world.turn after).Keeps kept := by
  have next : kept (world.turn after).state := by
    show kept (world.turns.headD id world.state)
    cases turns : world.turns with
    | nil => exact keeps.now
    | cons change rest => exact keeps.later change (by simp [turns]) world.state keeps.now
  refine ⟨next, ?_, ?_⟩
  · intro change member
    exact keeps.later change (List.mem_of_mem_tail member)
  · intro fetch member
    rcases List.mem_cons.1 member with rfl | earlier
    · exact next
    · exact keeps.found fetch earlier

end Disturbed

/-- The manager on states that change ahead of each fetch of a page. The rows that a walk can come
upon are those of the pages ahead of a change and those behind all changes. -/
def Manager.disturbed {σ : Type} (manager : Manager σ) : Manager (Disturbed σ) :=
  { manager.within Disturbed.state fun world state => { world with state := state } with
    scanPage := fun store range slice after size world =>
      let turned := world.turn after
      let (page, left) := manager.scanPage store range slice after size turned.state
      (page, { turned with state := left })
    rowCount := fun store world =>
      scanPageRows * world.turns.length + manager.rowCount store world.settled }

/-! ### Rows in key order -/

section Rows

variable {rows : List KeyedRow} {row : KeyedRow}

/-- A row among rows in key order is the only one of its key. -/
theorem filter_key_of_ascending (ascending : rows.Pairwise fun left right => left.key < right.key)
    (member : row ∈ rows) : (rows.filter fun other => other.key = row.key) = [row] := by
  obtain ⟨front, back, rfl⟩ := List.append_of_mem member
  obtain ⟨-, tailAscending, apart⟩ := List.pairwise_append.1 ascending
  have above := (List.pairwise_cons.1 tailAscending).1
  have frontOut : (front.filter fun other => other.key = row.key) = [] := by
    simp only [List.filter_eq_nil_iff, decide_eq_true_eq]
    intro other inFront same
    have less := apart other inFront row List.mem_cons_self
    exact Std.lt_irrefl (same ▸ less)
  have backOut : (back.filter fun other => other.key = row.key) = [] := by
    simp only [List.filter_eq_nil_iff, decide_eq_true_eq]
    intro other inBack same
    exact Std.lt_irrefl (same ▸ above other inBack)
  simp [frontOut, backOut]

/-- Some of the rows are the first ones if the others come behind a full number of them. -/
theorem eq_take_of_covered {found : List KeyedRow} {limit : Nat}
    (foundAscending : found.Pairwise fun left right => left.key < right.key)
    (ascending : rows.Pairwise fun left right => left.key < right.key)
    (among : ∀ row ∈ found, row ∈ rows) (limited : found.length ≤ limit)
    (covered : ∀ row ∈ rows, row ∈ found ∨
      found.length = limit ∧ ∀ other ∈ found, other.key < row.key) :
    found = rows.take limit := by
  induction rows generalizing found limit with
  | nil =>
      rw [List.take_nil, List.eq_nil_iff_forall_not_mem]
      exact fun row member => List.not_mem_nil (among row member)
  | cons row rows inductionHypothesis =>
      obtain ⟨above, restAscending⟩ := List.pairwise_cons.1 ascending
      -- No row that was found comes in front of the first one.
      have notBefore : ∀ other ∈ found, ¬ other.key < row.key := by
        intro other member less
        rcases List.mem_cons.1 (among other member) with rfl | later
        · exact Std.lt_irrefl less
        · exact Std.lt_irrefl (Std.lt_trans less (above other later))
      cases found with
      | nil =>
          rcases covered row List.mem_cons_self with member | ⟨full, -⟩
          · exact absurd member List.not_mem_nil
          · rw [← full, List.length_nil, List.take_zero]
      | cons first found =>
          obtain ⟨behind, foundAscending⟩ := List.pairwise_cons.1 foundAscending
          have same : first = row := by
            rcases covered row List.mem_cons_self with member | ⟨-, before⟩
            · rcases List.mem_cons.1 member with same | later
              · exact same.symm
              · exact absurd (behind row later) (notBefore first List.mem_cons_self)
            · exact absurd (before first List.mem_cons_self) (notBefore first List.mem_cons_self)
          subst same
          cases limit with
          | zero => exact absurd limited (by simp)
          | succ limit =>
              rw [List.take_succ_cons]
              apply congrArg (first :: ·)
              apply inductionHypothesis foundAscending restAscending
              · intro other member
                rcases List.mem_cons.1 (among other (List.mem_cons_of_mem _ member)) with
                  same | later
                · exact absurd (behind other member) (same ▸ Std.lt_irrefl)
                · exact later
              · simpa using limited
              · intro other member
                rcases covered other (List.mem_cons_of_mem _ member) with listed | ⟨full, before⟩
                · rcases List.mem_cons.1 listed with same | later
                  · exact absurd (above other member) (same ▸ Std.lt_irrefl)
                  · exact Or.inl later
                · refine Or.inr ⟨by simpa using full, fun third inFound => ?_⟩
                  exact before third (List.mem_cons_of_mem _ inFound)

end Rows

namespace Table

/-- There are no more rows behind a later place. -/
theorem length_rowsBehind_mono (table : Table) {range : KeyRange} (slice : Slice)
    {after later : Option Bytes}
    (behind : ∀ key, inPage range later key = true → inPage range after key = true) :
    (table.rowsBehind range slice later).length ≤ (table.rowsBehind range slice after).length := by
  have fewer : (table.filter fun key _ => inPage range later key).entries.Sublist
      (table.filter fun key _ => inPage range after key).entries :=
    List.monotone_filter_right table.entries fun entry => behind entry.1
  exact ((fewer.map _).filter _).length_le

end Table

namespace Pager

/-- A walk that has used up its buffer and fetches a page stands where that page begins. -/
theorem at_accept (pager : Pager) (table : Table) (range : KeyRange) (slice : Slice)
    (unused : pager.exhausted = false) (paged : 0 < pager.pageSize) :
    (({ pager with buffered := [] } : Pager).accept
      (Table.page table range slice pager.lastKey pager.pageSize)).At table range slice
        pager.lastKey := by
  have standing : ({ pager with buffered := [] } : Pager).At table range slice pager.lastKey :=
    ⟨by simp [unused], by simp, fun _ inside => inside, paged⟩
  exact standing.accept unused pager.selector

/-- The walk yields no further row: the limit is reached, or all pages are used up. -/
def Ended (pager : Pager) : Prop :=
  pager.selector.reachedLimit = true ∨ pager.buffered = [] ∧ pager.exhausted = true

end Pager

/-! ### What a walk yields -/

/-- A manager whose stores are tables that are walked over page by page through any handle. -/
structure PagedBackend {σ : Type} (manager : Manager σ) where
  isOpen : σ → Prop
  table : σ → StoreRef → Table
  starts : ∀ state store, isOpen state → manager.startScan store state = (.ok (), state)
  pages : ∀ state store range slice after size, isOpen state →
    manager.scanPage store range slice after size state =
      (.ok (Table.page (table state store) range slice after size), state)
  counts : ∀ state store, (table state store).size ≤ manager.rowCount store state

/-- What a walk is asked for: the rows of a store in a range with entries in a slice, of the keys
that a filter accepts, up to a number. -/
structure KeyQuery where
  store : StoreRef
  range : KeyRange
  slice : Slice
  filter : KeyFilter
  limit : Nat

def KeyQuery.firstRows (query : KeyQuery) (table : Table) : List KeyedRow :=
  ((table.rowsBehind query.range query.slice none).filter fun row => query.filter row.key).take
    query.limit

section Walk

variable {σ : Type} {manager : Manager σ} (backend : PagedBackend manager) (query : KeyQuery)

namespace PagedBackend

def tableAt (fetch : Fetch σ) : Table := backend.table fetch.state query.store

/-- The row of a key looks the same to every one of the fetches. -/
def Stays (fetches : List (Fetch σ)) (row : KeyedRow) : Prop :=
  ∀ fetch ∈ fetches, Table.slice (backend.tableAt query fetch) row.key query.slice = row.entries

/-- What the rows of a walk have to do with the fetches that it has made. -/
structure Scanned (rows : List KeyedRow) (fetches : List (Fetch σ)) : Prop where
  ascending : rows.Pairwise fun left right => left.key < right.key
  inRange : ∀ row ∈ rows, query.range.contains row.key = true
  accepted : ∀ row ∈ rows, query.filter row.key = true
  limited : rows.length ≤ query.limit
  /-- A row is on a page that was fetched, with the entries that it had then. -/
  fetched : ∀ row ∈ rows, row.entries ≠ [] ∧ ∃ fetch ∈ fetches,
    row ∈ Table.page (backend.tableAt query fetch) query.range query.slice fetch.after
      Manager.scanPageRows ∧
    row.entries = Table.slice (backend.tableAt query fetch) row.key query.slice
  /-- A row that stays is yielded once, or the limit was reached in front of it. -/
  covered : ∀ row, query.range.contains row.key = true → query.filter row.key = true →
    row.entries ≠ [] → backend.Stays query fetches row →
      (rows.filter fun other => other.key = row.key) = [row] ∨
        rows.length = query.limit ∧ ∀ other ∈ rows, other.key < row.key
  /-- A walk whose fetches all find the same table yields the first rows of it. -/
  undisturbed : ∀ table, (∀ fetch ∈ fetches, backend.tableAt query fetch = table) →
    rows = query.firstRows table

/-! ### Where a walk stands -/

/-- Where a walk from `start` stands that has yielded the rows `found`. -/
structure Standing (start : Disturbed σ) (found : List KeyedRow) (pager : Pager)
    (world : Disturbed σ) : Prop where
  keeps : ∀ kept, start.Keeps kept → world.Keeps kept
  selector : pager.selector = ⟨query.filter, query.limit, found.length⟩
  limited : found.length ≤ query.limit
  paged : pager.pageSize = Manager.scanPageRows
  accepted : ∀ row ∈ found, query.filter row.key = true
  ascending : (found ++ pager.buffered).Pairwise fun left right => left.key < right.key
  fetched : ∀ row ∈ found ++ pager.buffered, ∃ fetch ∈ world.fetches,
    row ∈ Table.page (backend.tableAt query fetch) query.range query.slice fetch.after
      Manager.scanPageRows
  reached : ∀ row ∈ found ++ pager.buffered, Table.inPage query.range pager.lastKey row.key = false
  /-- A row that stays is yielded, in the buffer, or still to be fetched. -/
  covered : ∀ row, query.range.contains row.key = true → query.filter row.key = true →
    row.entries ≠ [] → backend.Stays query world.fetches row →
      row ∈ found ++ pager.buffered ∨
        pager.exhausted = false ∧ Table.inPage query.range pager.lastKey row.key = true

def ahead (pager : Pager) (world : Disturbed σ) : Nat :=
  if pager.exhausted then 0
  else Manager.scanPageRows * world.turns.length +
    ((backend.table world.settled query.store).rowsBehind query.range query.slice
      pager.lastKey).length

/-- No more rows are fetched than the fuel of a walk provides for. -/
theorem ahead_le_rowCount (pager : Pager) (world : Disturbed σ) :
    backend.ahead query pager world ≤ manager.disturbed.rowCount query.store world := by
  have counted := backend.counts world.settled query.store
  have bound := Table.length_rowsBehind_le (backend.table world.settled query.store) query.range
    query.slice pager.lastKey
  show _ ≤ Manager.scanPageRows * world.turns.length + manager.rowCount query.store world.settled
  unfold ahead
  split <;> omega

/-- What a fetch answers: a page of the table behind the next change. -/
theorem scanPage_disturbed {world : Disturbed σ} (isOpen : world.Keeps backend.isOpen)
    (after : Option Bytes) (size : Nat) :
    manager.disturbed.scanPage query.store query.range query.slice after size world =
      (.ok (Table.page (backend.table (world.turn after).state query.store) query.range query.slice
        after size), world.turn after) := by
  have answered := backend.pages _ query.store query.range query.slice after size
    (isOpen.turn after).now
  unfold Manager.disturbed
  dsimp only
  rw [answered]

variable {backend query} {start world : Disturbed σ} {found : List KeyedRow} {pager : Pager}

theorem ahead_of_exhausted (used : pager.exhausted = true) : backend.ahead query pager world = 0 :=
  if_pos used

theorem ahead_of_unused (unused : pager.exhausted = false) :
    backend.ahead query pager world = Manager.scanPageRows * world.turns.length +
      ((backend.table world.settled query.store).rowsBehind query.range query.slice
        pager.lastKey).length := by
  simp [ahead, unused]

/-- What a fetch takes into the buffer is no longer ahead. -/
theorem ahead_turn (unused : pager.exhausted = false) {page : List KeyedRow}
    (short : page.length ≤ Manager.scanPageRows)
    (placed : (pager.accept page).At
      (backend.table (world.turn pager.lastKey).state query.store) query.range query.slice
      pager.lastKey) :
    page.length + backend.ahead query (pager.accept page) (world.turn pager.lastKey) ≤
      backend.ahead query pager world := by
  rw [ahead_of_unused unused]
  cases turns : world.turns with
  | nil =>
      -- Nothing changes any more: the page is a front of what the settled table holds.
      have total := congrArg List.length placed.left
      rw [List.length_append, Disturbed.state_turn_of_nil turns] at total
      change page.length + _ = _ at total
      rw [Disturbed.settled_of_nil turns]
      cases used : (pager.accept page).exhausted with
      | true =>
          rw [used, if_pos rfl, List.length_nil] at total
          rw [ahead_of_exhausted used]
          omega
      | false =>
          rw [used, if_neg Bool.false_ne_true] at total
          rw [ahead_of_unused used, Disturbed.settled_turn, Disturbed.settled_of_nil turns]
          show _ + (_ * world.turns.tail.length + _) ≤ _
          rw [turns, List.tail_nil]
          omega
  | cons change rest =>
      -- The change makes room for a whole page, whatever the table held in the meantime.
      have room : Manager.scanPageRows * (change :: rest).length =
          Manager.scanPageRows * rest.length + Manager.scanPageRows := Nat.mul_succ _ _
      have fewer := Table.length_rowsBehind_mono (backend.table world.settled query.store)
        query.slice placed.later
      cases used : (pager.accept page).exhausted with
      | true =>
          rw [ahead_of_exhausted used]
          omega
      | false =>
          rw [ahead_of_unused used, Disturbed.settled_turn]
          show _ + (_ * world.turns.tail.length + _) ≤ _
          rw [turns, List.tail_cons]
          omega

namespace Standing

theorem new {selector : Selector} (made : Selector.new query.filter query.limit = .ok selector) :
    backend.Standing query start [] (Pager.new selector Manager.scanPageRows) start := by
  have counted : selector = ⟨query.filter, query.limit, 0⟩ := by
    unfold Selector.new at made
    split at made
    · cases made
    · exact (Except.ok.inj made).symm
  refine ⟨fun kept keeps => keeps, counted, Nat.zero_le _, rfl, nofun, .nil, nofun, nofun, ?_⟩
  intro row within accepted filled stays
  have inFront : Table.inPage query.range none row.key = true := by simp [Table.inPage, within]
  exact Or.inr ⟨rfl, inFront⟩

/-- A walk may yield rows of its buffer, and drop those that the filter rejects. -/
theorem thin (standing : backend.Standing query start found pager world)
    {selector : Selector} {rows back : List KeyedRow}
    (counted : selector = ⟨query.filter, query.limit, rows.length⟩)
    (limited : rows.length ≤ query.limit) (accepted : ∀ row ∈ rows, query.filter row.key = true)
    (part : (rows ++ back).Sublist (found ++ pager.buffered))
    (whole : ∀ row ∈ found ++ pager.buffered, query.filter row.key = true → row ∈ rows ++ back) :
    backend.Standing query start rows { pager with selector := selector, buffered := back }
      world where
  keeps := standing.keeps
  selector := counted
  limited := limited
  paged := standing.paged
  accepted := accepted
  ascending := standing.ascending.sublist part
  fetched row member := standing.fetched row (part.subset member)
  reached row member := standing.reached row (part.subset member)
  covered row within passes filled stays := by
    rcases standing.covered row within passes filled stays with member | ahead
    · exact Or.inl (whole row member passes)
    · exact Or.inr ahead

/-- Every row of a walk was shown to one of its fetches. -/
theorem shown (standing : backend.Standing query start found pager world) {row : KeyedRow}
    (member : row ∈ found ++ pager.buffered) :
    ∃ fetch ∈ world.fetches, Table.inPage query.range fetch.after row.key = true ∧
      row.entries = Table.slice (backend.tableAt query fetch) row.key query.slice ∧
      row.entries ≠ [] := by
  obtain ⟨fetch, made, onPage⟩ := standing.fetched row member
  exact ⟨fetch, made, Table.mem_rowsBehind.1 (List.mem_of_mem_take onPage)⟩

theorem inRange (standing : backend.Standing query start found pager world) {row : KeyedRow}
    (member : row ∈ found ++ pager.buffered) : query.range.contains row.key = true := by
  obtain ⟨_, -, inside, -⟩ := standing.shown member
  exact Table.contains_of_inPage inside

/-- A row that stays and has not been yielded is on the page that is fetched, or behind it. -/
theorem covered_fetch (standing : backend.Standing query start found pager world)
    (empty : pager.buffered = []) {page : List KeyedRow}
    (placed : (pager.accept page).At
      (backend.table (world.turn pager.lastKey).state query.store) query.range query.slice
      pager.lastKey) {row : KeyedRow} (within : query.range.contains row.key = true)
    (passes : query.filter row.key = true) (filled : row.entries ≠ [])
    (stays : backend.Stays query (world.turn pager.lastKey).fetches row) :
    row ∈ found ++ page ∨ (pager.accept page).exhausted = false ∧
      Table.inPage query.range (pager.accept page).lastKey row.key = true := by
  have before : backend.Stays query world.fetches row := fun fetch made =>
    stays fetch (List.mem_cons_of_mem _ made)
  have now : Table.slice (backend.table (world.turn pager.lastKey).state query.store) row.key
      query.slice = row.entries := stays _ List.mem_cons_self
  rcases standing.covered row within passes filled before with member | ⟨-, ahead⟩
  · rw [empty, List.append_nil] at member
    exact Or.inl (List.mem_append_left _ member)
  · have listed := Table.mem_rowsBehind.2 ⟨ahead, now.symm, filled⟩
    rw [← placed.left] at listed
    rcases List.mem_append.1 listed with onPage | later
    · exact Or.inl (List.mem_append_right _ onPage)
    · cases used : (pager.accept page).exhausted with
      | true =>
          rw [used] at later
          exact absurd later List.not_mem_nil
      | false =>
          rw [used] at later
          exact Or.inr ⟨rfl, (Table.mem_rowsBehind.1 later).1⟩

/-- A walk fetches a page once its buffer is used up. -/
theorem fetch (standing : backend.Standing query start found pager world)
    (empty : pager.buffered = []) {page : List KeyedRow}
    (answered : page = Table.page (backend.table (world.turn pager.lastKey).state query.store)
      query.range query.slice pager.lastKey pager.pageSize)
    (placed : (pager.accept page).At
      (backend.table (world.turn pager.lastKey).state query.store) query.range query.slice
      pager.lastKey) :
    backend.Standing query start found (pager.accept page) (world.turn pager.lastKey) := by
  have onPage : ∀ row ∈ page, row ∈ Table.rowsBehind
      (backend.table (world.turn pager.lastKey).state query.store) query.range query.slice
      pager.lastKey := by
    intro row member
    exact List.mem_of_mem_take (answered ▸ member)
  have inFound : ∀ row ∈ found, row ∈ found ++ pager.buffered := fun row =>
    List.mem_append_left _
  refine ⟨fun kept keeps => (standing.keeps kept keeps).turn _, standing.selector,
    standing.limited, standing.paged, standing.accepted, ?_, ?_, ?_, ?_⟩
  · refine List.pairwise_append.2 ⟨(List.pairwise_append.1 standing.ascending).1, ?_, ?_⟩
    · show page.Pairwise _
      rw [answered]
      exact Table.ascending_rowsBehind.sublist (List.take_sublist _ _)
    · intro row member other later
      have ahead := (Table.mem_rowsBehind.1 (onPage other later)).1
      exact Table.lt_of_inPage (standing.inRange (inFound row member))
        (standing.reached row (inFound row member)) ahead
  · intro row member
    rcases List.mem_append.1 member with old | new
    · obtain ⟨fetch, made, listed⟩ := standing.fetched row (inFound row old)
      exact ⟨fetch, List.mem_cons_of_mem _ made, listed⟩
    · refine ⟨_, List.mem_cons_self, ?_⟩
      rw [← standing.paged]
      exact answered ▸ new
  · intro row member
    rcases List.mem_append.1 member with old | new
    · rw [Bool.eq_false_iff]
      intro behind
      have reached := standing.reached row (inFound row old)
      exact Bool.false_ne_true (reached.symm.trans (placed.later row.key behind))
    · exact placed.drawn row new
  · intro row within passes filled stays
    exact standing.covered_fetch empty placed within passes filled stays

theorem reachedLimit_eq (standing : backend.Standing query start found pager world) :
    pager.selector.reachedLimit = decide (query.limit ≤ found.length) := by
  rw [standing.selector]
  rfl

/-- A walk yields the first accepted row of its buffer. -/
theorem take (standing : backend.Standing query start found pager world)
    {skipped back : List KeyedRow} {row : KeyedRow} (isOpen : pager.selector.reachedLimit = false)
    (buffer : pager.buffered = skipped ++ row :: back)
    (rejected : ∀ other ∈ skipped, pager.selector.filter other.key = false)
    (accepted : pager.selector.filter row.key = true) :
    backend.Standing query start (found ++ [row])
      { pager with
        selector := { pager.selector with accepted := pager.selector.accepted + 1 }
        buffered := back } world := by
  have room : found.length < query.limit := by
    simpa [standing.reachedLimit_eq] using isOpen
  rw [standing.selector] at rejected accepted ⊢
  apply standing.thin
  · rw [List.length_append, List.length_singleton]
  · rw [List.length_append, List.length_singleton]
    omega
  · intro other member
    rcases List.mem_append.1 member with old | new
    · exact standing.accepted other old
    · rw [List.mem_singleton.1 new]
      exact accepted
  · rw [buffer, List.append_assoc]
    exact (List.sublist_append_right skipped (row :: back)).append_left found
  · intro other member passes
    rw [buffer] at member
    simp only [List.mem_append, List.mem_cons] at member
    rcases member with old | skipped | same | later
    · simp [old]
    · exact absurd passes (Bool.eq_false_iff.1 (rejected other skipped))
    · simp [same]
    · simp [later]

/-- A walk drops a buffer without accepted rows. -/
theorem drop (standing : backend.Standing query start found pager world)
    (rejected : ∀ row ∈ pager.buffered, pager.selector.filter row.key = false) :
    backend.Standing query start found { pager with buffered := [] } world := by
  rw [standing.selector] at rejected
  apply standing.thin standing.selector standing.limited standing.accepted
  · rw [List.append_nil]
    exact List.sublist_append_left _ _
  · intro row member passes
    rcases List.mem_append.1 member with old | buffered
    · exact List.mem_append_left _ old
    · exact absurd passes (Bool.eq_false_iff.1 (rejected row buffered))

/-- A walk whose buffer is used up fetches a page, and no more rows are left than before. -/
theorem refill (isOpen : start.Keeps backend.isOpen)
    (standing : backend.Standing query start found pager world)
    (unused : pager.exhausted = false) (empty : pager.buffered = []) :
    ∃ page,
      manager.disturbed.scanPage query.store query.range query.slice pager.lastKey pager.pageSize
          world = (.ok page, world.turn pager.lastKey) ∧
        backend.Standing query start found (pager.accept page) (world.turn pager.lastKey) ∧
        page.length + backend.ahead query (pager.accept page) (world.turn pager.lastKey) ≤
          backend.ahead query pager world := by
  have fetched := scanPage_disturbed backend query (standing.keeps _ isOpen) pager.lastKey
    pager.pageSize
  have positive : 0 < pager.pageSize := by
    rw [standing.paged]
    decide
  have placed := pager.at_accept (backend.table (world.turn pager.lastKey).state query.store)
    query.range query.slice unused positive
  rw [show ({ pager with buffered := [] } : Pager) = pager by rw [← empty]] at placed
  refine ⟨_, fetched, standing.fetch empty rfl placed, ahead_turn unused ?_ placed⟩
  rw [standing.paged]
  exact List.length_take_le _ _

end Standing

end PagedBackend

end Walk

end GraphStore
