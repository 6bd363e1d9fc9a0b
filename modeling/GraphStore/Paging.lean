import GraphStore.Action
import GraphStore.Error
import GraphStore.Table

/-!
Contract: which keys a scan accepts, and walking over rows page by page.

Owns the key filter together with the count of accepted keys, which only grows, so that a limit once
reached stays reached. Owns as well the walk over the answers of a page source. Every row is offered
to a selector; a page is fetched only when the rows at hand are used up, the limit is not reached
and no page was short. A failed fetch is yielded once and ends the walk.
-/

namespace GraphStore

/-! ### Selectors -/

abbrev KeyFilter := Bytes → Bool

/-- A key filter with a cap on the accepted keys. -/
structure Selector where
  filter : KeyFilter
  limit : Nat
  accepted : Nat

namespace Selector

/-- A selector that has accepted nothing yet; the limit must be positive. -/
def new (filter : KeyFilter) (limit : Nat) : Result Selector :=
  if limit = 0 then .error (.invalidArgument .zeroSelectorLimit)
  else .ok ⟨filter, limit, 0⟩

def all (limit : Nat) : Result Selector := new (fun _ => true) limit

/-- Whether no further key will be accepted. -/
def reachedLimit (selector : Selector) : Bool := selector.limit ≤ selector.accepted

/-- Looks at a key: whether it is accepted, and the selector that has counted it.
Behind the limit no key is looked at. -/
def offer (selector : Selector) (key : Bytes) : Bool × Selector :=
  if selector.reachedLimit then (false, selector)
  else if selector.filter key then
    (true, { selector with accepted := selector.accepted + 1 })
  else (false, selector)

def text (selector : Selector) : String :=
  "KeySelector \x7b limit: " ++ toString selector.limit ++ ", accepted: "
    ++ toString selector.accepted ++ " \x7d"

end Selector

/-! ### Walks -/

/-- A source of pages: rows behind a key, or from the front, up to a number of rows. -/
abbrev PageSource (σ : Type) := Option Bytes → Nat → Action σ (List KeyedRow)

/-- The state of a walk. -/
structure Pager where
  selector : Selector
  pageSize : Nat
  buffered : List KeyedRow
  lastKey : Option Bytes
  exhausted : Bool

namespace Pager

/-- The walk before its first page; pages hold at least one row. -/
def new (selector : Selector) (pageSize : Nat) : Pager :=
  ⟨selector, max pageSize 1, [], none, false⟩

/-- The first row that the selector accepts, the selector behind it, and the rows left. -/
def draw (selector : Selector) : List KeyedRow → Option KeyedRow × Selector × List KeyedRow
  | [] => (none, selector, [])
  | row :: rows =>
    match selector.offer row.key with
    | (true, selector) => (some row, selector, rows)
    | (false, selector) => draw selector rows

def accept (pager : Pager) (page : List KeyedRow) : Pager :=
  { pager with
    buffered := page
    lastKey := match page.getLast? with
      | some last => some last.key
      | none => pager.lastKey
    exhausted := pager.exhausted || page.length < pager.pageSize }

/-- The next row or failure, or `none` at the end; at most `fuel` pages are fetched. -/
def next {σ : Type} (fetch : PageSource σ) :
    (fuel : Nat) → Pager → σ → Option (Result KeyedRow) × Pager × σ
  | 0, pager, state => (none, pager, state)
  | fuel + 1, pager, state =>
    if pager.selector.reachedLimit then (none, pager, state)
    else
      match draw pager.selector pager.buffered with
      | (some row, selector, rows) =>
        (some (.ok row), { pager with selector := selector, buffered := rows }, state)
      | (none, selector, _) =>
        let pager := { pager with selector := selector, buffered := [] }
        if pager.exhausted then (none, pager, state)
        else
          match fetch pager.lastKey pager.pageSize state with
          | (.error failure, state) =>
            (some (.error failure), { pager with exhausted := true }, state)
          | (.ok page, state) =>
            let pager := pager.accept page
            if page.isEmpty then (none, pager, state) else next fetch fuel pager state

end Pager

end GraphStore
