import GraphStore.Proofs.Rows
import GraphStore.Proofs.Scan.Store

/-!
Contract: the rows of a range in pages, and a walk over them through a selector.

Owns the rows that a range holds behind a key (`Table.rowsBehind`), of which a page is a front,
and what one request for a row comes to (`Pager.Drawn`): the first accepted row of those that are
left, or the end, or a failure. A walk is tied to a table by `Pager.At`: what is buffered and what
is still to be fetched are together the rows behind the place that the walk has reached. The table
may change in the meantime, as long as it does so in front of that place only.
-/

namespace GraphStore

/-! ### Rows behind a key -/

namespace Table

/-- The rows of a range behind `after` with their entries in the slice, in key order; rows
without such entries are left out. -/
def rowsBehind (table : Table) (range : KeyRange) (slice : Slice) (after : Option Bytes) :
    List KeyedRow :=
  let rows := (table.filter fun key _ => inPage range after key).entries.map fun entry =>
    (⟨entry.1, Row.slice entry.2 slice⟩ : KeyedRow)
  rows.filter fun row => !row.entries.isEmpty

theorem page_eq_take (table : Table) (range : KeyRange) (slice : Slice) (after : Option Bytes)
    (size : Nat) :
    Table.page table range slice after size = (table.rowsBehind range slice after).take size :=
  rfl

section

variable {table : Table} {range : KeyRange} {slice : Slice} {after : Option Bytes}

theorem ascending_rowsBehind :
    (table.rowsBehind range slice after).Pairwise fun left right => left.key < right.key := by
  apply List.Pairwise.filter
  apply List.pairwise_map.2
  exact (table.filter fun key _ => inPage range after key).ascending

/-- The rows behind a place are those of the range that show entries in the slice. -/
theorem mem_rowsBehind {row : KeyedRow} :
    row ∈ table.rowsBehind range slice after ↔
      inPage range after row.key = true ∧ row.entries = Table.slice table row.key slice ∧
        row.entries ≠ [] := by
  have held : ∀ key stored, (key, stored) ∈ table.entries → Table.row table key = stored := by
    intro key stored member
    rw [Table.row, OrderedMap.findD, OrderedMap.find?_eq_some_iff.2 member, Option.getD_some]
  unfold rowsBehind
  simp only [List.mem_filter, List.mem_map, OrderedMap.filter, Bool.not_eq_true',
    List.isEmpty_eq_false_iff]
  constructor
  · intro found
    obtain ⟨⟨⟨key, stored⟩, ⟨member, inside⟩, rfl⟩, filled⟩ := found
    refine ⟨inside, ?_, filled⟩
    rw [Table.slice, held key stored member]
  · intro found
    obtain ⟨inside, shown, filled⟩ := found
    refine ⟨?_, filled⟩
    cases stored : table.find? row.key with
    | none =>
        apply absurd shown
        rw [Table.slice, Table.row, OrderedMap.findD, stored, Option.getD_none]
        have nothing : Row.slice .empty slice = [] := by
          unfold Row.slice Slice.cap
          cases slice.limit <;> simp [Row.toEntries, OrderedMap.filter, OrderedMap.empty]
        rw [nothing]
        exact filled
    | some values =>
        have member := OrderedMap.find?_eq_some_iff.1 stored
        refine ⟨(row.key, values), ⟨member, inside⟩, ?_⟩
        rw [Table.slice, held row.key values member] at shown
        cases row
        exact congrArg _ shown.symm

end

/-- Rows in key order are determined by which ones they are. -/
theorem rows_ext {left right : List KeyedRow}
    (leftAscending : left.Pairwise fun first second => first.key < second.key)
    (rightAscending : right.Pairwise fun first second => first.key < second.key)
    (same : ∀ row, row ∈ left ↔ row ∈ right) : left = right := by
  let pair : KeyedRow → Bytes × List Entry := fun row => (row.key, row.entries)
  have recover : ∀ rows : List KeyedRow,
      (rows.map pair).map (fun held => (⟨held.1, held.2⟩ : KeyedRow)) = rows := by
    intro rows
    rw [List.map_map]
    exact List.map_id _
  have paired : left.map pair = right.map pair := by
    apply OrderedMap.eq_of_mem_iff (List.pairwise_map.2 leftAscending)
      (List.pairwise_map.2 rightAscending)
    intro held
    simp only [List.mem_map, same]
  rw [← recover left, ← recover right, paired]

/-- Rows behind a key depend on the rows of the keys behind it alone. -/
theorem rowsBehind_congr {left right : Table} {range : KeyRange} {after : Option Bytes}
    (slice : Slice)
    (same : ∀ key, inPage range after key = true → Table.row left key = Table.row right key) :
    left.rowsBehind range slice after = right.rowsBehind range slice after := by
  apply rows_ext ascending_rowsBehind ascending_rowsBehind
  intro row
  rw [mem_rowsBehind, mem_rowsBehind]
  apply and_congr_right
  intro inside
  rw [Table.slice, Table.slice, same row.key inside]

theorem inPage_some {range : KeyRange} {key other : Bytes} :
    inPage range (some key) other = true ↔ range.contains other = true ∧ key < other := by
  simp [inPage]

theorem contains_of_inPage {range : KeyRange} {after : Option Bytes} {key : Bytes}
    (inside : inPage range after key = true) : range.contains key = true :=
  (Bool.and_eq_true_iff.1 inside).1

/-- A row that lies behind another one also lies behind everything in front of that one. -/
theorem inPage_of_later {range : KeyRange} {after : Option Bytes} {key other : Bytes}
    (inside : inPage range after key = true) (later : inPage range (some key) other = true) :
    inPage range after other = true := by
  obtain ⟨within, above⟩ := inPage_some.1 later
  cases after with
  | none => simpa [inPage] using within
  | some last => exact inPage_some.2 ⟨within, Std.lt_trans (inPage_some.1 inside).2 above⟩

/-- A key that is not behind a place comes before every key that is. -/
theorem lt_of_inPage {range : KeyRange} {after : Option Bytes} {key other : Bytes}
    (within : range.contains key = true) (reached : inPage range after key = false)
    (ahead : inPage range after other = true) : key < other := by
  cases after with
  | none => simp [inPage, within] at reached
  | some last =>
      have above := (inPage_some.1 ahead).2
      have notAbove : ¬ last < key := by
        intro behind
        rw [inPage_some.2 ⟨within, behind⟩] at reached
        cases reached
      by_cases less : key < last
      · exact Std.lt_trans less above
      · rw [Std.le_antisymm (Std.not_lt.1 notAbove) (Std.not_lt.1 less)]
        exact above

theorem rowsBehind_of_split {table : Table} {range : KeyRange} {slice : Slice}
    {after : Option Bytes} {front back : List KeyedRow} {row : KeyedRow}
    (split : table.rowsBehind range slice after = front ++ row :: back) :
    table.rowsBehind range slice (some row.key) = back := by
  have ascending : (front ++ row :: back).Pairwise fun left right => left.key < right.key :=
    split ▸ ascending_rowsBehind
  obtain ⟨-, tailAscending, apart⟩ := List.pairwise_append.1 ascending
  obtain ⟨above, backAscending⟩ := List.pairwise_cons.1 tailAscending
  have inside : inPage range after row.key = true := by
    have member : row ∈ table.rowsBehind range slice after := by simp [split]
    exact (mem_rowsBehind.1 member).1
  apply rows_ext ascending_rowsBehind backAscending
  intro other
  constructor
  · intro member
    obtain ⟨later, shown⟩ := mem_rowsBehind.1 member
    have inFront : other ∈ front ++ row :: back := by
      rw [← split]
      exact mem_rowsBehind.2 ⟨inPage_of_later inside later, shown⟩
    have less : row.key < other.key := (inPage_some.1 later).2
    simp only [List.mem_append, List.mem_cons] at inFront
    rcases inFront with front | same | back
    · have greater := apart other front row List.mem_cons_self
      exact absurd (Std.lt_trans less greater) Std.lt_irrefl
    · rw [same] at less
      exact absurd less Std.lt_irrefl
    · exact back
  · intro member
    have listed : other ∈ table.rowsBehind range slice after := by simp [split, member]
    obtain ⟨within, shown⟩ := mem_rowsBehind.1 listed
    apply mem_rowsBehind.2
    exact ⟨inPage_some.2 ⟨contains_of_inPage within, above other member⟩, shown⟩

theorem length_rowsBehind_le (table : Table) (range : KeyRange) (slice : Slice)
    (after : Option Bytes) : (table.rowsBehind range slice after).length ≤ table.size := by
  unfold rowsBehind OrderedMap.size OrderedMap.filter
  calc
    _ ≤ _ := List.length_filter_le _ _
    _ = _ := List.length_map _
    _ ≤ _ := List.length_filter_le _ _

end Table

/-! ### A walk -/

namespace Selector

theorem offer_of_rejected {selector : Selector} {key : Bytes}
    (rejected : selector.filter key = false) : selector.offer key = (false, selector) := by
  simp [offer, rejected]

theorem offer_of_accepted {selector : Selector} {key : Bytes}
    (isOpen : selector.reachedLimit = false) (accepted : selector.filter key = true) :
    selector.offer key = (true, { selector with accepted := selector.accepted + 1 }) := by
  simp [offer, isOpen, accepted]

end Selector

namespace Pager

open Table

/-- A selector that is open passes over the rows that it rejects. -/
theorem draw_cases {selector : Selector} (isOpen : selector.reachedLimit = false)
    (rows : List KeyedRow) :
    (∃ skipped row back, rows = skipped ++ row :: back ∧
      (∀ other ∈ skipped, selector.filter other.key = false) ∧ selector.filter row.key = true ∧
      draw selector rows =
        (some row, { selector with accepted := selector.accepted + 1 }, back)) ∨
    (∀ row ∈ rows, selector.filter row.key = false) ∧
      draw selector rows = (none, selector, []) := by
  induction rows with
  | nil => exact Or.inr ⟨by simp, rfl⟩
  | cons row rows inductionHypothesis =>
      cases decision : selector.filter row.key with
      | true =>
          refine Or.inl ⟨[], row, rows, rfl, by simp, decision, ?_⟩
          rw [draw, Selector.offer_of_accepted isOpen decision]
      | false =>
          have passed : draw selector (row :: rows) = draw selector rows := by
            rw [draw, Selector.offer_of_rejected decision]
          rw [passed]
          rcases inductionHypothesis with ⟨skipped, found, back, split, rejected, rest⟩ |
            ⟨rejected, ended⟩
          · refine Or.inl ⟨row :: skipped, found, back, by simp [split], ?_, rest⟩
            simpa [decision] using rejected
          · exact Or.inr ⟨by simpa [decision] using rejected, ended⟩

/-- The walk has reached `place`: what is buffered and what is still to be fetched are the rows
behind it. -/
structure At (table : Table) (range : KeyRange) (slice : Slice) (place : Option Bytes)
    (pager : Pager) : Prop where
  left : pager.buffered ++
      (if pager.exhausted then [] else table.rowsBehind range slice pager.lastKey) =
    table.rowsBehind range slice place
  drawn : ∀ row ∈ pager.buffered, inPage range pager.lastKey row.key = false
  later : ∀ key, inPage range pager.lastKey key = true → inPage range place key = true
  paged : 0 < pager.pageSize

/-- What a request for a row comes to: the first accepted row of those that are left, with the
walk standing behind it; or nothing, when the limit is reached or no row that is left is accepted;
or a failure. -/
inductive Drawn (table : Table) (range : KeyRange) (slice : Slice) (place : Option Bytes)
    (selector : Selector) : Option (Result KeyedRow) → Pager → Prop where
  | row {skipped back : List KeyedRow} {row : KeyedRow} {after : Pager}
      (split : table.rowsBehind range slice place = skipped ++ row :: back)
      (rejected : ∀ other ∈ skipped, selector.filter other.key = false)
      (accepted : selector.filter row.key = true)
      (isOpen : selector.reachedLimit = false)
      (counted : after.selector = { selector with accepted := selector.accepted + 1 })
      (reached : after.At table range slice (some row.key)) :
      Drawn table range slice place selector (some (.ok row)) after
  | full {after : Pager} (reached : selector.reachedLimit = true) :
      Drawn table range slice place selector none after
  | through {after : Pager} (isOpen : selector.reachedLimit = false)
      (rejected : ∀ row ∈ table.rowsBehind range slice place, selector.filter row.key = false) :
      Drawn table range slice place selector none after
  | failed {after : Pager} (failure : StoreError) :
      Drawn table range slice place selector (some (.error failure)) after

/-- A walk that has not begun has the whole range in front of it. -/
theorem at_new (table : Table) (range : KeyRange) (slice : Slice) (selector : Selector)
    (pageSize : Nat) : (Pager.new selector pageSize).At table range slice none where
  left := rfl
  drawn := by simp [Pager.new]
  later _ inside := inside
  paged := by
    unfold Pager.new
    dsimp only
    omega

section Fetching

variable {table : Table} {range : KeyRange} {slice : Slice} {place : Option Bytes}
  {pager : Pager}

/-- The rows that a walk passes over are in front of those that are left. -/
theorem At.split (reached : pager.At table range slice place) {skipped back : List KeyedRow}
    {row : KeyedRow} (buffer : pager.buffered = skipped ++ row :: back) :
    table.rowsBehind range slice place = skipped ++ row :: (back ++
      (if pager.exhausted then [] else table.rowsBehind range slice pager.lastKey)) := by
  rw [← reached.left, buffer]
  simp

/-- What is not in memory is less than what is left. -/
theorem At.length_lt (reached : pager.At table range slice place) (filled : pager.buffered ≠ []) :
    (if pager.exhausted then [] else table.rowsBehind range slice pager.lastKey).length <
      (table.rowsBehind range slice place).length := by
  have positive : 0 < pager.buffered.length := List.length_pos_iff.2 filled
  rw [← reached.left, List.length_append]
  omega

theorem At.take (reached : pager.At table range slice place) {skipped back : List KeyedRow}
    {row : KeyedRow} (buffer : pager.buffered = skipped ++ row :: back) (selector : Selector) :
    ({ pager with selector := selector, buffered := back } : Pager).At table range slice
      (some row.key) := by
  have split := reached.split buffer
  have behind := rowsBehind_of_split split
  refine ⟨behind.symm, ?_, ?_, reached.paged⟩
  · intro other member
    apply reached.drawn
    simp [buffer, member]
  · intro key inside
    have inFront : inPage range pager.lastKey row.key = false := by
      apply reached.drawn
      simp [buffer]
    have within : range.contains row.key = true := by
      have member : row ∈ table.rowsBehind range slice place := by simp [split]
      exact contains_of_inPage (mem_rowsBehind.1 member).1
    exact inPage_some.2 ⟨contains_of_inPage inside, lt_of_inPage within inFront inside⟩

/-- Behind the last row of a page come the rows that are not on it. -/
theorem rowsBehind_of_page {after : Option Bytes} {size : Nat} {row : KeyedRow}
    (last : ((table.rowsBehind range slice after).take size).getLast? = some row) :
    table.rowsBehind range slice (some row.key) =
      (table.rowsBehind range slice after).drop size := by
  obtain ⟨front, isPage⟩ := List.getLast?_eq_some_iff.1 last
  have whole := List.take_append_drop size (table.rowsBehind range slice after)
  rw [isPage, List.append_assoc, List.singleton_append] at whole
  exact rowsBehind_of_split whole.symm

/-- No row of a page lies behind the last one. -/
theorem not_later_of_page {after : Option Bytes} {size : Nat} {row other : KeyedRow}
    (last : ((table.rowsBehind range slice after).take size).getLast? = some row)
    (member : other ∈ (table.rowsBehind range slice after).take size) :
    ¬ row.key < other.key := by
  intro later
  obtain ⟨front, isPage⟩ := List.getLast?_eq_some_iff.1 last
  have ascending : (front ++ [row]).Pairwise fun left right => left.key < right.key := by
    rw [← isPage]
    exact ascending_rowsBehind.sublist (List.take_sublist _ _)
  rw [isPage] at member
  rcases List.mem_append.1 member with inFront | same
  · have less := (List.pairwise_append.1 ascending).2.2 other inFront row (by simp)
    exact Std.lt_irrefl (Std.lt_trans later less)
  · rw [List.mem_singleton.1 same] at later
    exact Std.lt_irrefl later

/-- A fetched page is buffered, and the walk stands where the page begins. -/
theorem At.accept (reached : pager.At table range slice place) (used : pager.exhausted = false)
    (selector : Selector) :
    let page := (table.rowsBehind range slice pager.lastKey).take pager.pageSize
    (({ pager with selector := selector, buffered := [] } : Pager).accept page).At table range
      slice pager.lastKey := by
  intro page
  have paged := reached.paged
  cases last : page.getLast? with
  | none =>
      have empty : page = [] := List.getLast?_eq_none_iff.1 last
      have nothing : table.rowsBehind range slice pager.lastKey = [] :=
        (List.take_eq_nil_iff.1 empty).resolve_left (Nat.ne_of_gt paged)
      refine ⟨?_, by simp [Pager.accept, empty], by simp [Pager.accept, last], paged⟩
      simp [Pager.accept, empty, nothing, used, paged]
  | some row =>
      have behind := rowsBehind_of_page last
      have listed : row ∈ table.rowsBehind range slice pager.lastKey :=
        List.mem_of_mem_take (List.mem_of_getLast? last)
      refine ⟨?_, ?_, ?_, paged⟩
      · simp only [Pager.accept, last, used, Bool.false_or]
        by_cases short : page.length < pager.pageSize
        · have all : page = table.rowsBehind range slice pager.lastKey := by
            apply List.take_of_length_le
            have length : page.length = min pager.pageSize _ := List.length_take
            omega
          simp [short, ← all]
        · simp only [short, decide_false, behind, if_neg Bool.false_ne_true]
          exact List.take_append_drop _ _
      · intro other member
        simp only [Pager.accept, last] at member ⊢
        simp [inPage, not_later_of_page last member]
      · intro key inside
        simp only [Pager.accept, last] at inside
        exact inPage_of_later (mem_rowsBehind.1 listed).1 inside

end Fetching

/-! The ways of a request for a row. -/

section Requests

variable {σ : Type} {fetch : PageSource σ} {fuel : Nat} {pager : Pager} {state : σ}

theorem next_of_full (limit : pager.selector.reachedLimit = true) :
    next fetch (fuel + 1) pager state = (none, pager, state) := by
  simp [next, limit]

variable (limit : pager.selector.reachedLimit = false)
include limit

theorem next_of_buffered {row : KeyedRow} {selector : Selector} {back : List KeyedRow}
    (drew : draw pager.selector pager.buffered = (some row, selector, back)) :
    next fetch (fuel + 1) pager state =
      (some (.ok row), { pager with selector := selector, buffered := back }, state) := by
  simp [next, limit, drew]

variable (drew : draw pager.selector pager.buffered = (none, pager.selector, []))
include drew

theorem next_of_exhausted (used : pager.exhausted = true) :
    next fetch (fuel + 1) pager state = (none, { pager with buffered := [] }, state) := by
  simp [next, limit, drew, used]

variable (unused : pager.exhausted = false)
include unused

/-- A failed fetch is yielded and ends the walk. -/
theorem next_of_failed {failure : StoreError} {left : σ}
    (failed : fetch pager.lastKey pager.pageSize state = (.error failure, left)) :
    next fetch (fuel + 1) pager state =
      (some (.error failure), { pager with buffered := [], exhausted := true }, left) := by
  simp [next, limit, drew, unused, failed]

/-- A fetched page is drawn from, or ends the walk if it is empty. -/
theorem next_of_fetched {page : List KeyedRow} {left : σ}
    (fetched : fetch pager.lastKey pager.pageSize state = (.ok page, left)) :
    next fetch (fuel + 1) pager state =
      if page.isEmpty then (none, ({ pager with buffered := [] } : Pager).accept page, left)
      else next fetch fuel (({ pager with buffered := [] } : Pager).accept page) left := by
  simp [next, limit, drew, unused, fetched]

end Requests

/-- Rows that are passed over on the way do not change what a request comes to. -/
theorem Drawn.behind {table : Table} {range : KeyRange} {slice : Slice}
    {place later : Option Bytes} {selector : Selector} {passed : List KeyedRow}
    {row : Option (Result KeyedRow)} {after : Pager}
    (drawn : Drawn table range slice later selector row after)
    (split : table.rowsBehind range slice place = passed ++ table.rowsBehind range slice later)
    (rejected : ∀ other ∈ passed, selector.filter other.key = false) :
    Drawn table range slice place selector row after := by
  cases drawn with
  | @row skipped back row after laterSplit laterRejected accepted isOpen counted reached =>
      have whole : table.rowsBehind range slice place = (passed ++ skipped) ++ row :: back := by
        rw [split, laterSplit, List.append_assoc]
      apply Drawn.row whole _ accepted isOpen counted reached
      intro other member
      rcases List.mem_append.1 member with first | second
      · exact rejected other first
      · exact laterRejected other second
  | full reached => exact .full reached
  | through isOpen laterRejected =>
      apply Drawn.through isOpen
      intro other member
      rw [split] at member
      rcases List.mem_append.1 member with first | second
      · exact rejected other first
      · exact laterRejected other second
  | failed failure => exact .failed failure

/-- What one request for a row comes to. The induction is on the pages that it may fetch; a page
without an accepted row moves the place of the walk to where the next page begins. -/
theorem next_result {σ : Type} {scanner : Scanner σ} {reference : StoreRef}
    (store : ScanStore scanner reference) {table : Table} {range : KeyRange} {slice : Slice}
    {place : Option Bytes} {pager : Pager} (reached : pager.At table range slice place)
    {state : σ} (isReady : store.ready state)
    (agrees : ∀ key, inPage range place key = true →
      Table.row (store.table state) key = Table.row table key)
    {fuel : Nat} (enough : (if pager.exhausted then []
      else table.rowsBehind range slice pager.lastKey).length < fuel) :
    ∃ row after left,
      next (scanner.manager.scanPage reference range slice) fuel pager state =
          (row, after, left) ∧
        store.Keeps state left ∧ Drawn table range slice place pager.selector row after := by
  induction fuel generalizing place pager state with
  | zero => exact absurd enough (Nat.not_lt_zero _)
  | succ fuel inductionHypothesis =>
      cases limit : pager.selector.reachedLimit with
      | true => exact ⟨none, pager, state, next_of_full limit, .refl state, .full limit⟩
      | false =>
      rcases draw_cases limit pager.buffered with
        ⟨skipped, row, back, buffer, rejected, accepted, drew⟩ | ⟨rejected, drew⟩
      · exact ⟨_, _, state, next_of_buffered limit drew, .refl state,
          .row (reached.split buffer) rejected accepted limit rfl (reached.take buffer _)⟩
      have left := reached.left
      cases used : pager.exhausted with
      | true =>
          rw [used, if_pos rfl, List.append_nil] at left
          exact ⟨none, _, state, next_of_exhausted limit drew used, .refl state,
            .through limit (left ▸ rejected)⟩
      | false =>
      rw [used, if_neg Bool.false_ne_true] at enough left
      obtain ⟨keeps, answers⟩ :=
        store.pages state range slice pager.lastKey pager.pageSize isReady
      rcases fetched : scanner.manager.scanPage reference range slice pager.lastKey
        pager.pageSize state with ⟨outcome, between⟩
      rw [fetched] at keeps answers
      cases outcome with
      | error failure =>
          exact ⟨_, _, between, next_of_failed limit drew used fetched, keeps, .failed failure⟩
      | ok page =>
      have isPage : page = (table.rowsBehind range slice pager.lastKey).take pager.pageSize := by
        rw [answers page rfl, page_eq_take]
        congr 1
        apply rowsBehind_congr
        intro key inside
        exact agrees key (reached.later key inside)
      have paged := reached.paged
      rw [next_of_fetched limit drew used fetched]
      cases isEmpty : page.isEmpty with
      | true =>
          refine ⟨none, _, between, rfl, keeps, .through limit ?_⟩
          have nothing : table.rowsBehind range slice pager.lastKey = [] := by
            rw [isPage, List.isEmpty_iff, List.take_eq_nil_iff] at isEmpty
            exact isEmpty.resolve_left (Nat.ne_of_gt paged)
          rw [← left, nothing, List.append_nil]
          exact rejected
      | false =>
          have standing := reached.accept used pager.selector
          rw [← isPage] at standing
          have filled : page ≠ [] := List.isEmpty_eq_false_iff.1 isEmpty
          have fewer := Nat.lt_of_lt_of_le (standing.length_lt filled)
            (Nat.le_of_lt_succ enough)
          obtain ⟨row, after, last, requested, keepsLast, drawn⟩ :=
            inductionHypothesis standing (keeps.ready isReady) (fun key inside => by
              rw [keeps.table]
              exact agrees key (reached.later key inside)) fewer
          exact ⟨row, after, last, requested, keeps.trans keepsLast,
            drawn.behind left.symm rejected⟩

end Pager

/-- A request for a row of a walk that has reached `place`. -/
theorem Manager.Scan.next_result {σ : Type} {scanner : Scanner σ} {reference : StoreRef}
    (store : ScanStore scanner reference) {table : Table} {walk : Manager.Scan}
    {place : Option Bytes} (own : walk.store = reference)
    (reached : walk.pager.At table walk.range walk.slice place) {state : σ}
    (isReady : store.ready state)
    (agrees : ∀ key, Table.inPage walk.range place key = true →
      Table.row (store.table state) key = Table.row table key) :
    ∃ row after left, walk.next scanner.manager state = (row, { walk with pager := after }, left) ∧
      store.Keeps state left ∧
      Pager.Drawn table walk.range walk.slice place walk.pager.selector row after := by
  have enough : (if walk.pager.exhausted then []
      else table.rowsBehind walk.range walk.slice walk.pager.lastKey).length <
        scanner.manager.rowCount walk.store state + 2 := by
    split
    · simp
    · have same : table.rowsBehind walk.range walk.slice walk.pager.lastKey =
          (store.table state).rowsBehind walk.range walk.slice walk.pager.lastKey := by
        apply Table.rowsBehind_congr
        intro key inside
        exact (agrees key (reached.later key inside)).symm
      have bound := Table.length_rowsBehind_le (store.table state) walk.range walk.slice
        walk.pager.lastKey
      have counted := store.counts state isReady
      rw [same, own]
      omega
  obtain ⟨row, after, left, requested, keeps, drawn⟩ :=
    Pager.next_result store reached isReady agrees enough
  refine ⟨row, after, left, ?_, keeps, drawn⟩
  subst own
  unfold Manager.Scan.next
  dsimp only
  rw [requested]

end GraphStore
